import DreamStudio.Boundaries.RoundTrip
import DreamStudio.Library.Machine
import DreamStudio.WorkOrders.Reported

namespace DreamStudio.WorkOrders

open Library Boundaries

/-- The id that a project is registered under: a `uuid4`, never the empty text. -/
structure ProjectId where
  text : String
  drawn : text ≠ ""

structure Spawn where
  projectId : String
  category : String
  workOrderId : String

/-- The authority, and all that was ever spawned. -/
structure FanOut where
  authority : Authority
  spawns : List Spawn

/-- A call of `_insert_gap_work_orders`, a work order that is closed, cancelled or otherwise moved,
or another one that is registered. -/
inductive FanOutMove
  | insert (world : GapWorld) (call : InsertCall) (gaps : List Gap)
  | move (workOrderId : String) (status : WorkOrderStatus)
  | register (row : GapWorkOrder)

def spawnOf (py : Stdlib) (projectId : String) (item : Gap × GapRecord) : Option Spawn :=
  match item.2.route with
  | .spawned _ _ _ => some ⟨projectId, gapCategory py item.1, item.2.workOrderId⟩
  | _ => none

def Unused (world : GapWorld) (n : Nat) (a : Authority) : Prop :=
  (∀ i < n, ∀ w ∈ a.works, w.workOrderId ≠ world.newWorkOrderId i) ∧
    ∀ i < n, ∀ j < i, world.newWorkOrderId j ≠ world.newWorkOrderId i

instance (world : GapWorld) (n : Nat) (a : Authority) : Decidable (Unused world n a) :=
  inferInstanceAs (Decidable (_ ∧ _))

def Authority.move (a : Authority) (workOrderId : String) (status : WorkOrderStatus) : Authority :=
  { a with works := a.works.map fun w => if w.workOrderId = workOrderId then
    { w with status := status } else w }

namespace FanOut

variable (s : FanOut)

/-- The spawned work orders of a category in `created` or `in_progress`. -/
def openSpawns (projectId category : String) : Nat :=
  s.spawns.countP fun x => x.projectId = projectId ∧ x.category = category ∧
    s.authority.isOpen x.workOrderId

/-- One move. No work order that is not open is opened again, and none is registered under an id in
use. -/
def step (py : Stdlib) : FanOutMove → Option FanOut
  | .insert world call gaps =>
    if Unused world gaps.length s.authority then
      let (records, after) := insertGapWorkOrders py world call s.authority gaps
      some ⟨after, s.spawns ++ (gaps.zip records).filterMap (spawnOf py call.projectId)⟩
    else none
  | .move workOrderId status =>
    if status ∈ openStatuses ∧ !s.authority.isOpen workOrderId then none
    else some { s with authority := s.authority.move workOrderId status }
  | .register row =>
    if ∀ w ∈ s.authority.works, w.workOrderId ≠ row.workOrderId then
      some { s with authority.works := s.authority.works ++ [row] }
    else none

end FanOut

def gapFanOut (py : Stdlib) : Machine FanOut FanOutMove where
  step s := s.step py

def Spawn.Marks (x : Spawn) (w : GapWorkOrder) : Prop :=
  w.projectId = x.projectId ∧ instr w.description ("::" ++ x.category ++ "]")

namespace FanOut

structure Tracked (s : FanOut) : Prop where
  nodup : (s.spawns.map (·.workOrderId)).Nodup
  known : ∀ x ∈ s.spawns, ∃ w ∈ s.authority.works, w.workOrderId = x.workOrderId
  marked : ∀ x ∈ s.spawns, ∀ w ∈ s.authority.works, w.workOrderId = x.workOrderId → x.Marks w

structure Bounded (s : FanOut) : Prop where
  twice : ∀ projectId category, projectId ≠ "" → s.openSpawns projectId category ≤ 2
  once : ∀ projectId, ∀ category ∈ advisoryProjectWideCategories, s.openSpawns projectId category ≤
    1

structure Sound (s : FanOut) : Prop extends Tracked s, Bounded s

end FanOut

section Rows

variable {a b : Authority}

theorem isOpen_iff {workOrderId : String} : a.isOpen workOrderId = true ↔
    ∃ w, a.works.find? (·.workOrderId = workOrderId) = some w ∧ w.status ∈ openStatuses := by
  rw [Authority.isOpen, Option.any_eq_true]
  simp only [decide_eq_true_iff]

theorem of_find {workOrderId : String} {w : GapWorkOrder}
    (found : a.works.find? (·.workOrderId = workOrderId) = some w) :
    w ∈ a.works ∧ w.workOrderId = workOrderId := by
  have own := List.find?_some found
  exact ⟨List.mem_of_find?_eq_some found, of_decide_eq_true own⟩

theorem isOpen_congr (same : b.works = a.works) (workOrderId : String) :
    b.isOpen workOrderId = a.isOpen workOrderId := by
  rw [Authority.isOpen, Authority.isOpen, same]

theorem isOpen_concat {row : GapWorkOrder} (added : b.works = a.works ++ [row])
    {workOrderId : String} (known : ∃ w ∈ a.works, w.workOrderId = workOrderId) :
    b.isOpen workOrderId = a.isOpen workOrderId := by
  obtain ⟨w, member, own⟩ := known
  have found : (a.works.find? (·.workOrderId = workOrderId)).isSome := by
    rw [List.find?_isSome]
    exact ⟨w, member, decide_eq_true own⟩
  rw [Authority.isOpen, Authority.isOpen, added, List.find?_append, Option.or_of_isSome found]

theorem isOpen_of_move {workOrderId moved : String} {status : WorkOrderStatus}
    (allowed : ¬(status ∈ openStatuses ∧ !a.isOpen moved))
    (opened : (a.move moved status).isOpen workOrderId) :
    a.isOpen workOrderId := by
  obtain ⟨w, found, open_⟩ := isOpen_iff.mp opened
  have keeps :
      ((fun w : GapWorkOrder => decide (w.workOrderId = workOrderId)) ∘ fun w : GapWorkOrder =>
        if w.workOrderId = moved then { w with status := status } else w) =
        fun w => decide (w.workOrderId = workOrderId) := by
    funext v
    dsimp only [Function.comp_apply]
    split <;> rfl
  rw [Authority.move, List.find?_map, keeps] at found
  obtain ⟨v, held, rfl⟩ := Option.map_eq_some_iff.mp found
  split at open_
  next same =>
    rw [← (of_find held).2, same]
    simpa [open_] using allowed
  next other => exact isOpen_iff.mpr ⟨v, held, open_⟩

end Rows

namespace FanOut

variable {s : FanOut}

theorem Tracked.openSpawns_le (tracked : s.Tracked) (projectId category : String) :
    s.openSpawns projectId category ≤ categoryOpenSpawnCount s.authority projectId category := by
  rw [openSpawns, categoryOpenSpawnCount, List.countP_eq_length_filter,
    List.countP_eq_length_filter,
    ← List.length_map (fun x : Spawn => x.workOrderId), ← List.length_map
      (fun w : GapWorkOrder => w.workOrderId)]
  have nodup := tracked.nodup.sublist
    ((List.filter_sublist (p := fun x : Spawn => decide (x.projectId = projectId ∧
      x.category = category ∧ s.authority.isOpen x.workOrderId))).map (·.workOrderId))
  apply (List.subperm_of_subset nodup _).length_le
  intro workOrderId member
  obtain ⟨x, held, rfl⟩ := List.mem_map.mp member
  obtain ⟨spawned, counted⟩ := List.mem_filter.mp held
  obtain ⟨rfl, rfl, opened⟩ := of_decide_eq_true counted
  obtain ⟨w, found, open_⟩ := isOpen_iff.mp opened
  obtain ⟨there, own⟩ := of_find found
  obtain ⟨project, marks⟩ := tracked.marked x spawned w there own
  exact List.mem_map.mpr ⟨w, List.mem_filter.mpr ⟨there, decide_eq_true ⟨project, open_, marks⟩⟩,
    own⟩

theorem Sound.same {s t : FanOut} (sound : s.Sound) (spawns : t.spawns = s.spawns)
    (known : ∀ x ∈ s.spawns, ∃ w ∈ t.authority.works, w.workOrderId = x.workOrderId)
    (marked : ∀ x ∈ s.spawns, ∀ w ∈ t.authority.works, w.workOrderId = x.workOrderId → x.Marks w)
    (opened : ∀ x ∈ s.spawns, t.authority.isOpen x.workOrderId → s.authority.isOpen x.workOrderId) :
    t.Sound := by
  have fewer (projectId category : String) :
      t.openSpawns projectId category ≤ s.openSpawns projectId category := by
    rw [openSpawns, openSpawns, spawns]
    apply List.countP_mono_left
    intro x member counted
    obtain ⟨project, same, here⟩ := of_decide_eq_true counted
    exact decide_eq_true ⟨project, same, opened x member here⟩
  exact
    { nodup := spawns ▸ sound.nodup
      known := spawns ▸ known
      marked := spawns ▸ marked
      twice := fun p c nonempty => (fewer p c).trans (sound.twice p c nonempty)
      once := fun p c listed => (fewer p c).trans (sound.once p c listed) }

theorem Sound.works {s t : FanOut} (sound : s.Sound) (spawns : t.spawns = s.spawns)
    (works : t.authority.works = s.authority.works) : t.Sound := by
  apply sound.same spawns
  · rw [works]
    exact sound.known
  · rw [works]
    exact sound.marked
  · intro x _ opened
    rwa [isOpen_congr works] at opened

theorem Sound.move (sound : s.Sound) {workOrderId : String} {status : WorkOrderStatus}
    (allowed : ¬(status ∈ openStatuses ∧ !s.authority.isOpen workOrderId)) :
    FanOut.Sound { s with authority := s.authority.move workOrderId status } := by
  have moved (w : GapWorkOrder) :
      (if w.workOrderId = workOrderId then { w with status := status } else w).workOrderId =
      w.workOrderId := by
    split <;> rfl
  apply sound.same (t := ⟨s.authority.move workOrderId status, s.spawns⟩) rfl
  · intro x member
    obtain ⟨w, held, own⟩ := sound.known x member
    exact ⟨_, List.mem_map_of_mem held, (moved w).trans own⟩
  · intro x member w held own
    obtain ⟨v, there, rfl⟩ := List.mem_map.mp held
    have marks := sound.marked x member v there ((moved v).symm.trans own)
    split <;> exact marks
  · exact fun x _ opened => isOpen_of_move allowed opened

theorem Sound.concat (sound : s.Sound) {row : GapWorkOrder} {t : FanOut}
    (spawns : t.spawns = s.spawns) (added : t.authority.works = s.authority.works ++ [row])
    (fresh : ∀ w ∈ s.authority.works, w.workOrderId ≠ row.workOrderId) : t.Sound := by
  apply sound.same spawns
  · intro x member
    obtain ⟨w, held, own⟩ := sound.known x member
    exact ⟨w, added ▸ List.mem_append_left _ held, own⟩
  · intro x member w held own
    rw [added] at held
    cases List.mem_append.mp held with
    | inl before => exact sound.marked x member w before own
    | inr new =>
      obtain ⟨v, there, same⟩ := sound.known x member
      rw [List.mem_singleton.mp new] at own
      exact absurd (same.trans own.symm) (fresh v there)
  · intro x member opened
    rwa [isOpen_concat added (sound.known x member)] at opened

theorem Sound.spawn (sound : s.Sound) {row : GapWorkOrder} {x : Spawn} {t : FanOut}
    (spawns : t.spawns = s.spawns ++ [x]) (added : t.authority.works = s.authority.works ++ [row])
    (own : row.workOrderId = x.workOrderId) (marks : x.Marks row)
    (fresh : ∀ w ∈ s.authority.works, w.workOrderId ≠ row.workOrderId)
    (twice : x.projectId ≠ "" → s.openSpawns x.projectId x.category < 2)
    (once : x.category ∈ advisoryProjectWideCategories → s.openSpawns x.projectId x.category < 1) :
    t.Sound := by
  have before : FanOut.Sound { t with spawns := s.spawns } := sound.concat rfl added fresh
  have counts (projectId category : String) :
      t.openSpawns projectId category ≤ s.openSpawns projectId category +
      if x.projectId = projectId ∧ x.category = category then 1 else 0 := by
    have kept : s.spawns.countP (fun y => y.projectId = projectId ∧ y.category = category ∧
        t.authority.isOpen y.workOrderId) = s.openSpawns projectId category := by
      apply List.countP_congr
      intro y member
      rw [isOpen_concat added (sound.known y member)]
    rw [openSpawns, spawns, List.countP_append, kept]
    apply Nat.add_le_add_left
    rw [List.countP_singleton]
    split
    next counted => rw [if_pos ⟨(of_decide_eq_true counted).1, (of_decide_eq_true counted).2.1⟩]
    next => exact Nat.zero_le _
  have known : ∀ y ∈ s.spawns, y.workOrderId ≠ x.workOrderId := by
    intro y member same
    obtain ⟨w, held, there⟩ := sound.known y member
    exact fresh w held (there.trans (same.trans own.symm))
  constructor
  · constructor
    · rw [spawns, List.map_append]
      apply List.Nodup.append sound.nodup (List.nodup_singleton _)
      intro workOrderId old new
      obtain ⟨y, member, rfl⟩ := List.mem_map.mp old
      exact known y member (List.mem_singleton.mp new)
    · rw [spawns]
      apply List.forall_mem_append.mpr ⟨before.known, List.forall_mem_singleton.mpr ⟨row, _, own⟩⟩
      rw [added]
      exact List.mem_append_right _ List.mem_cons_self
    · rw [spawns]
      apply List.forall_mem_append.mpr ⟨before.marked, List.forall_mem_singleton.mpr _⟩
      intro w held same
      rw [added] at held
      cases List.mem_append.mp held with
      | inl old => exact absurd (same.trans own.symm) (fresh w old)
      | inr new => exact List.mem_singleton.mp new ▸ marks
  · constructor
    · intro projectId category nonempty
      apply (counts projectId category).trans
      split
      next same =>
        obtain ⟨rfl, rfl⟩ := same
        exact twice nonempty
      next => exact sound.twice projectId category nonempty
    · intro projectId category listed
      apply (counts projectId category).trans
      split
      next same =>
        obtain ⟨rfl, rfl⟩ := same
        exact once listed
      next => exact sound.once projectId category listed

end FanOut

section Route

variable {py : Stdlib} {call : InsertCall} {a : Authority} {gap : Gap}

theorem gapKeyOf_split (py : Stdlib) (a : Authority) (projectId reviewed : String) (gap : Gap) :
    ∃ scope, gapKeyOf py a projectId reviewed gap = scope ++ ("::" ++ gapCategory py gap) := by
  have wide : "advisory::" ++ gapCategory py gap = "advisory" ++ ("::" ++ gapCategory py gap) := by
    rw [← String.append_assoc]
    rfl
  rw [gapKeyOf]
  split
  · exact ⟨_, wide⟩
  split
  · exact ⟨_, wide⟩
  · exact ⟨reviewed, String.append_assoc⟩

theorem contains_marker (front scope category warning : String) :
    contains (front ++ (spawnMarker ++ (scope ++ ("::" ++ category)) ++ "]") ++ warning)
      ("::" ++ category ++ "]") = true := by
  rw [contains_iff]
  simp only [String.toList_append]
  refine ⟨front.toList ++ (spawnMarker.toList ++ scope.toList), warning.toList, ?_⟩
  simp only [List.append_assoc]

theorem instr_some (description part : String) :
    instr (some description) part = contains description part := rfl

theorem spawnedRow_description (world : GapWorld) (base : Int) (counter i : Nat) (gap : Gap)
    (gapKey : String) :
    (spawnedRow world call base counter i gap gapKey).description =
      some (spawnDescription world call gap gapKey ++
        if world.workOrderEmitted i then "" else noEventWarning) := rfl

theorem spawnDescription_marker (world : GapWorld) (gap : Gap) (gapKey : String) :
    ∃ front, spawnDescription world call gap gapKey = front ++ (spawnMarker ++ gapKey ++ "]") :=
  ⟨_, rfl⟩

theorem marks_spawnedRow (world : GapWorld) (base : Int) (counter i : Nat)
    (b : Authority) (gap : Gap) :
    Spawn.Marks ⟨call.projectId, gapCategory py gap, world.newWorkOrderId i⟩
      (spawnedRow world call base counter i gap
        (gapKeyOf py b call.projectId call.reviewedWorkOrderId gap)) := by
  obtain ⟨scope, key⟩ := gapKeyOf_split py b call.projectId call.reviewedWorkOrderId gap
  rw [key]
  obtain ⟨front, text⟩ := @spawnDescription_marker call world gap
    (scope ++ ("::" ++ gapCategory py gap))
  have marked := contains_marker front scope (gapCategory py gap)
    (if world.workOrderEmitted i then "" else noEventWarning)
  rw [← text] at marked
  refine ⟨rfl, ?_⟩
  rw [spawnedRow_description, instr_some]
  exact marked

/-- `CASE status`. -/
def urgency (w : GapWorkOrder) : Nat :=
  if w.status = .inProgress then 0 else if w.status = .created then 1 else 2

theorem priorTo_iff {w w' : GapWorkOrder} :
    priorTo w w' ↔ urgency w < urgency w' ∨ urgency w = urgency w' ∧ w.createdAt ≤ w'.createdAt :=
  Iff.rfl

theorem open_iff_urgency {w : GapWorkOrder} : w.status ∈ openStatuses ↔ urgency w < 2 := by
  rw [urgency]
  cases w.status <;> decide

instance : Std.Total priorTo where
  total w w' := by
    rw [priorTo_iff, priorTo_iff]
    have dates := le_total w.createdAt w'.createdAt
    rcases lt_trichotomy (urgency w) (urgency w') with less | same | more
    · exact Or.inl (Or.inl less)
    · exact dates.imp (fun le => Or.inr ⟨same, le⟩) fun le => Or.inr ⟨same.symm, le⟩
    · exact Or.inr (Or.inl more)

instance : IsTrans GapWorkOrder priorTo where
  trans w w' w'' := by
    rw [priorTo_iff, priorTo_iff, priorTo_iff]
    rintro (less | ⟨same, le⟩) (less' | ⟨same', le'⟩)
    · exact Or.inl (less.trans less')
    · exact Or.inl (same' ▸ less)
    · exact Or.inl (same ▸ less')
    · exact Or.inr ⟨same.trans same', le.trans le'⟩

theorem open_priorRow {needle : String} {w : GapWorkOrder} (held : w ∈ a.works)
    (project : w.projectId = call.projectId) (marked : instr w.description needle)
    (opened : w.status ∈ openStatuses) :
    ∃ p, priorRow call a needle = some p ∧ p.status ∈ openStatuses := by
  have there :
      w ∈ (a.works.filter fun w => w.projectId = call.projectId ∧
        instr w.description needle).insertionSort priorTo :=
    (List.mem_insertionSort priorTo).mpr
      (List.mem_filter.mpr ⟨held, decide_eq_true ⟨project, marked⟩⟩)
  have sorted := List.pairwise_insertionSort priorTo
    (a.works.filter fun w => w.projectId = call.projectId ∧ instr w.description needle)
  rw [priorRow]
  generalize (a.works.filter fun w => w.projectId = call.projectId ∧
    instr w.description needle).insertionSort priorTo = rows at there sorted
  cases rows with
  | nil => cases there
  | cons p rows =>
    refine ⟨p, rfl, ?_⟩
    cases List.mem_cons.mp there with
    | inl same => exact same ▸ opened
    | inr later =>
      rw [open_iff_urgency] at opened ⊢
      cases priorTo_iff.mp (List.rel_of_pairwise_cons sorted later) with
      | inl less => exact less.trans opened
      | inr same => exact same.1 ▸ opened

theorem categoryOpenSpawnCount_eq_zero
    (none : ∀ p ∈ priorRow call a ("::" ++ gapCategory py gap ++ "]"),
    p.status ∉ openStatuses) :
    categoryOpenSpawnCount a call.projectId (gapCategory py gap) = 0 := by
  apply List.countP_eq_zero.mpr
  intro w held counted
  obtain ⟨project, opened, marked⟩ := of_decide_eq_true counted
  obtain ⟨p, found, open_⟩ := open_priorRow held project marked opened
  exact none p found open_

theorem gapKeyOf_cases (py : Stdlib) (a : Authority) (projectId reviewed : String) (gap : Gap) :
    startsWith (gapKeyOf py a projectId reviewed gap) "advisory::" = true ∨
      gapCategory py gap ∉ advisoryProjectWideCategories ∧
        (projectId ≠ "" → categoryOpenSpawnCount a projectId (gapCategory py gap) < 2) := by
  rw [gapKeyOf]
  split
  · exact Or.inl (startsWith_append _ _)
  next unlisted =>
    split
    · exact Or.inl (startsWith_append _ _)
    next few =>
      refine Or.inr ⟨unlisted, fun nonempty => ?_⟩
      exact Nat.lt_of_not_le fun many => few ⟨nonempty, many⟩

theorem of_routeGap_spawn (spawned : routeGap py call a gap = .spawn) :
    categoryOpenSpawnCount a call.projectId (gapCategory py gap) = 0 ∨
      gapCategory py gap ∉ advisoryProjectWideCategories ∧
        (call.projectId ≠ "" → categoryOpenSpawnCount a call.projectId (gapCategory py gap) <
          2) := by
  cases gapKeyOf_cases py a call.projectId call.reviewedWorkOrderId gap with
  | inr own => exact Or.inr own
  | inl wide =>
    refine Or.inl (categoryOpenSpawnCount_eq_zero fun p found => ?_)
    rw [routeGap] at spawned
    rw [searchNeedle, if_pos wide] at spawned
    split at spawned
    · cases spawned
    · rw [Option.mem_def.mp found] at spawned
      dsimp only at spawned
      split at spawned
      · cases spawned
      next closed => exact closed

end Route

section Run

variable {py : Stdlib} {world : GapWorld} {call : InsertCall}

theorem insertGap_works (py : Stdlib) (world : GapWorld) (call : InsertCall) (base : Int)
    (s : InsertState) (gap : Gap) (i : Nat) :
    ∃ record, (insertGap py world call base s (gap, i)).spawned = s.spawned ++ [record] ∧
      ((insertGap py world call base s (gap, i)).authority.works = s.authority.works ∧
          spawnOf py call.projectId (gap, record) = none ∨
        routeGap py call s.authority gap = .spawn ∧
          (insertGap py world call base s (gap, i)).authority.works = s.authority.works ++
            [spawnedRow world call base s.newWoCounter i gap
              (gapKeyOf py s.authority call.projectId call.reviewedWorkOrderId gap)] ∧
          spawnOf py call.projectId (gap, record) =
            some ⟨call.projectId, gapCategory py gap, world.newWorkOrderId i⟩) := by
  have attached (workOrderId gapKey : String) (tasks : List GapTask) :
      (attachGapTasks py world i s.authority workOrderId call.projectId tasks gapKey).2.works =
        s.authority.works := by
    obtain ⟨rows, filed, -⟩ :=
      attachGapTasks_spec py world i s.authority workOrderId call.projectId gapKey tasks
    rw [filed]
  cases route : routeGap py call s.authority gap with
  | attach =>
    simp only [insertGap, route]
    exact ⟨_, rfl, Or.inl ⟨attached _ _ _, rfl⟩⟩
  | suppress workOrderId =>
    simp only [insertGap, route]
    exact ⟨_, rfl, Or.inl ⟨trivial, rfl⟩⟩
  | merge workOrderId =>
    simp only [insertGap, route]
    exact ⟨_, rfl, Or.inl ⟨attached _ _ _, rfl⟩⟩
  | spawn =>
    simp only [insertGap, route]
    exact ⟨_, rfl, Or.inr ⟨trivial, trivial, rfl⟩⟩

def FanOut.during (py : Stdlib) (call : InsertCall) (s : FanOut) (gaps : List Gap)
    (t : InsertState) : FanOut :=
  ⟨t.authority, s.spawns ++ (gaps.zip t.spawned).filterMap (spawnOf py call.projectId)⟩

theorem drawn_works {a : Authority} {gaps : List Gap} {w : GapWorkOrder}
    (member : w ∈ (insertGaps py world call a gaps).authority.works) :
    w ∈ a.works ∨ ∃ j < gaps.length, w.workOrderId = world.newWorkOrderId j := by
  induction gaps using List.reverseRecOn with
  | nil => exact Or.inl member
  | append_singleton gaps gap ih =>
    rw [insertGaps_concat] at member
    rw [List.length_append, List.length_singleton]
    have before (held : w ∈ (insertGaps py world call a gaps).authority.works) :
        w ∈ a.works ∨ ∃ j < gaps.length + 1, w.workOrderId = world.newWorkOrderId j :=
      (ih held).imp_right fun ⟨j, within, own⟩ => ⟨j, Nat.lt_succ_of_lt within, own⟩
    obtain ⟨record, -, step⟩ :=
      insertGap_works py world call (baseSeq call a) (insertGaps py world call a gaps)
        gap gaps.length
    cases step with
    | inl same => exact before (same.1 ▸ member)
    | inr spawned =>
      rw [spawned.2.1] at member
      cases List.mem_append.mp member with
      | inl held => exact before held
      | inr new => exact Or.inr ⟨gaps.length, Nat.lt_succ_self _, List.mem_singleton.mp new ▸ rfl⟩

theorem FanOut.Sound.insertGaps {s : FanOut} (sound : s.Sound) {gaps : List Gap}
    (unused : Unused world gaps.length s.authority) :
    (s.during py call gaps (WorkOrders.insertGaps py world call s.authority gaps)).Sound := by
  induction gaps using List.reverseRecOn with
  | nil => exact sound.works (List.append_nil _) rfl
  | append_singleton gaps gap ih =>
    rw [List.length_append, List.length_singleton] at unused
    have earlier := ih ⟨fun i within => unused.1 i (Nat.lt_succ_of_lt within),
      fun i within => unused.2 i (Nat.lt_succ_of_lt within)⟩
    have length := length_spawned py world call s.authority gaps
    obtain ⟨record, added, step⟩ := insertGap_works py world call (baseSeq call s.authority)
      (WorkOrders.insertGaps py world call s.authority gaps) gap gaps.length
    have spawns :
        (s.during py call (gaps ++ [gap])
          (WorkOrders.insertGaps py world call s.authority (gaps ++ [gap]))).spawns =
        (s.during py call gaps (WorkOrders.insertGaps py world call s.authority gaps)).spawns ++
          (spawnOf py call.projectId (gap, record)).toList := by
      rw [during, during, insertGaps_concat, added, List.zip_append length.symm,
        List.filterMap_append, List.append_assoc]
      rfl
    rw [← insertGaps_concat] at step
    cases step with
    | inl same =>
      rw [same.2, Option.toList_none, List.append_nil] at spawns
      exact earlier.works spawns same.1
    | inr spawned =>
      obtain ⟨route, works, marked⟩ := spawned
      rw [marked, Option.toList_some] at spawns
      apply earlier.spawn spawns works rfl (marks_spawnedRow _ _ _ _ _ _)
      · intro w member
        cases drawn_works member with
        | inl held => exact unused.1 _ (Nat.lt_succ_self _) w held
        | inr drawn =>
          obtain ⟨j, within, own⟩ := drawn
          exact own ▸ unused.2 _ (Nat.lt_succ_self _) j within
      · intro nonempty
        apply (earlier.openSpawns_le _ _).trans_lt
        cases of_routeGap_spawn route with
        | inl none => exact none ▸ Nat.zero_lt_two
        | inr few => exact few.2 nonempty
      · intro listed
        apply (earlier.openSpawns_le _ _).trans_lt
        cases of_routeGap_spawn route with
        | inl none => exact none ▸ Nat.zero_lt_one
        | inr few => exact absurd listed few.1

theorem map_redistribute (records : List GapRecord) (items : List Unfiled) :
    (redistribute records items).map (fun r => (r.workOrderId, r.route)) =
      records.map fun r => (r.workOrderId, r.route) := by
  rw [redistribute]
  split
  · rfl
  · cases records with
    | nil => rfl
    | cons r rs =>
      simp only [List.map_cons, List.map_map]
      rfl

theorem filterMap_redistribute (projectId : String) (gaps : List Gap) (records : List GapRecord)
    (items : List Unfiled) :
    (gaps.zip (redistribute records items)).filterMap (spawnOf py projectId) =
      (gaps.zip records).filterMap (spawnOf py projectId) := by
  -- only these two fields of a record are read
  have read (rs : List GapRecord) : (gaps.zip rs).filterMap (spawnOf py projectId) =
      (gaps.zip (rs.map fun r => (r.workOrderId, r.route))).filterMap
        fun (gap, workOrderId, route) =>
        match route with
        | .spawned _ _ _ => some ⟨projectId, gapCategory py gap, workOrderId⟩
        | _ => none := by
    rw [List.zip_map_right, List.filterMap_map]
    rfl
  rw [read, read, map_redistribute]

theorem gapFanOut_sound {s t : FanOut} {m : FanOutMove} (sound : s.Sound)
    (stepped : (gapFanOut py).step s m = some t) :
    t.Sound := by
  cases m with
  | insert world call gaps =>
    obtain ⟨unused, after⟩ := Option.ite_none_right_eq_some.mp stepped
    cases after
    have during := @FanOut.Sound.insertGaps py world call s sound gaps unused
    exact during.works (congrArg (s.spawns ++ ·) (filterMap_redistribute _ _ _ _)) rfl
  | move workOrderId status =>
    obtain ⟨allowed, after⟩ := Option.ite_none_left_eq_some.mp stepped
    cases after
    exact sound.move allowed
  | register row =>
    obtain ⟨fresh, after⟩ := Option.ite_none_right_eq_some.mp stepped
    cases after
    exact sound.concat rfl rfl fresh

/-- However reviews come in and work orders are closed, a class has at most two open spawns in a
project, and at most one when it is on the list. -/
theorem openSpawns_bounded (py : Stdlib) (a : Authority) (moves : List FanOutMove) (s : FanOut)
    (reach : (gapFanOut py).run ⟨a, []⟩ moves = some s) (project : ProjectId) (category : String) :
    s.openSpawns project.text category ≤ 2 ∧
      (category ∈ advisoryProjectWideCategories → s.openSpawns project.text category ≤ 1) := by
  have start : FanOut.Sound ⟨a, []⟩ :=
    { nodup := List.nodup_nil
      known := List.forall_mem_nil _
      marked := List.forall_mem_nil _
      twice := fun _ _ _ => Nat.zero_le _
      once := fun _ _ _ => Nat.zero_le _ }
  have sound := (gapFanOut py).run_invariant
    (fun _ _ _ sound stepped => gapFanOut_sound sound stepped) start reach
  exact ⟨sound.twice project.text category project.drawn, sound.once project.text category⟩

/-- A review spawns a work order for its finding, and it is cancelled. -/
theorem openSpawns_bounded_reviewed : ∃ s, (gapFanOut plainLibrary).run ⟨⟨[], []⟩, []⟩
    [.insert strict certifying [typingGap], .move "#" .cancelled] = some s ∧
      s.spawns = [⟨"p", "typing", "#"⟩] ∧ s.openSpawns "p" "typing" ≤ 2 :=
  ⟨_, rfl, rfl,
    (openSpawns_bounded plainLibrary ⟨[], []⟩
      [.insert strict certifying [typingGap], .move "#" .cancelled] _
      rfl ⟨"p", by decide⟩ "typing").1⟩

end Run

end DreamStudio.WorkOrders
