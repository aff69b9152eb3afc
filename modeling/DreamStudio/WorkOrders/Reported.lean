import DreamStudio.WorkOrders.Drain
import DreamStudio.WorkOrders.Refusals

namespace DreamStudio.WorkOrders

open Library Projections

section Spec

variable (py : Stdlib) (world : GapWorld) (call : InsertCall) (a : Authority) (gaps : List Gap)

/-- `uuid4` draws what is nowhere in use. -/
structure Fresh : Prop where
  task : ∀ o o', world.newTaskId o = world.newTaskId o' → o = o'
  work : ∀ i i', world.newWorkOrderId i = world.newWorkOrderId i' → i = i'
  tasks : ∀ o, ∀ t ∈ a.tasks, t.taskId ≠ world.newTaskId o
  works : ∀ i, ∀ w ∈ a.works, w.workOrderId ≠ world.newWorkOrderId i
  reviewed : ∀ i, call.reviewedWorkOrderId ≠ world.newWorkOrderId i

def Before (o o' : Nat × Nat) : Prop := o.1 < o'.1 ∨ o.1 = o'.1 ∧ o.2 < o'.2

def GapRoute.SkipsHeld : GapRoute → Prop
  | .attachedToReviewed _ _ | .mergedIntoExisting => True
  | .respawnSuppressed | .spawned _ _ _ => False

def FiledOn (after : Authority) (record : GapRecord) (origin : Nat × Nat) (task : GapTask) : Prop :=
  ∃ t ∈ after.tasks, t.taskId = world.newTaskId origin ∧ t.workOrderId = record.workOrderId ∧
    t.title = task.title

def SkippedOn (after : Authority) (record : GapRecord) (origin : Nat × Nat) (task : GapTask) :
    Prop :=
  record.route.SkipsHeld ∧ ∃ t ∈ after.tasks, t.workOrderId = record.workOrderId ∧
    normalised py t.title = normalised py task.title ∧
      (t ∈ a.tasks ∨ ∃ o, Before o origin ∧ t.taskId = world.newTaskId o)

def ReportedIn (records : List GapRecord) (origin : Nat × Nat) (k : Nat) : Prop :=
  ∃ record, records[k]? = some record ∧ ∃ item ∈ record.unfiledFindings, item.origin = origin

/-- No review finding disappears. -/
def NoneDisappears : Prop :=
  let (records, after) := insertGapWorkOrders py world call a gaps
  ∀ (i : Nat) (gap : Gap) (j : Nat) (task : GapTask), gaps[i]? = some gap →
    gap.tasks[j]? = some task →
    ∃ record, records[i]? = some record ∧
      (FiledOn world after record (i, j) task ∨ SkippedOn py world a after record (i, j) task ∨
        record.route = .respawnSuppressed ∨ ∃! k, ReportedIn records (i, j) k)

def authorityAt (i : Nat) : Authority := (insertGaps py world call a (gaps.take i)).authority

def routeAt (i : Nat) (gap : Gap) : Routing :=
  routeGap py call (authorityAt py world call a gaps i) gap

def Refuses (i : Nat) (b : Authority) (gap : Gap) : Prop :=
  let gapKey := gapKeyOf py b call.projectId call.reviewedWorkOrderId gap
  match routeGap py call b gap with
  | .attach =>
    AttachRefuses py world i b (attachTarget b call.reviewedWorkOrderId call.projectId gapKey)
      (attachTasks gap)
  | .suppress _ => False
  | .merge workOrderId =>
    AttachRefuses py world i b (attachTarget b workOrderId call.projectId) gap.tasks
  | .spawn => SpawnRefuses world i (spawnDescription world call gap gapKey) gap.tasks

/-- Where a gap that is spawned has a task refused, no gap that is merged has one, and none is
merged into what was spawned. -/
def ReportsKept : Prop :=
  ∀ (i : Nat) (gap : Gap), gaps[i]? = some gap → routeAt py world call a gaps i gap = .spawn →
    Refuses py world call i (authorityAt py world call a gaps i) gap →
      ∀ (k : Nat) (other : Gap) (workOrderId : String), gaps[k]? = some other →
        routeAt py world call a gaps k other = .merge workOrderId →
          workOrderId ≠ world.newWorkOrderId i ∧
            ¬Refuses py world call k (authorityAt py world call a gaps k) other

end Spec

section Route

variable (world : GapWorld) (call : InsertCall) (i : Nat)

/-- The tasks of a gap that are put before the round table. -/
def Routing.asked (gap : Gap) : Routing → List GapTask
  | .attach => attachTasks gap
  | .suppress _ => []
  | .merge _ | .spawn => gap.tasks

def Routing.workOrder : Routing → String
  | .attach => call.reviewedWorkOrderId
  | .suppress workOrderId | .merge workOrderId => workOrderId
  | .spawn => world.newWorkOrderId i

def Routing.Leads : Routing → GapRoute → Prop
  | .attach, .attachedToReviewed _ _ | .suppress _, .respawnSuppressed
  | .merge _, .mergedIntoExisting | .spawn, .spawned _ _ _ => True
  | _, _ => False

variable {py : Stdlib} {b : Authority} {gap : Gap}

theorem routeGap_of_incomplete (incomplete : call.reviewedWoIncomplete)
    (open_ : b.isOpen call.reviewedWorkOrderId) :
    routeGap py call b gap = .attach ∨ ∃ workOrderId, routeGap py call b gap =
      .suppress workOrderId := by
  unfold routeGap
  dsimp only
  split
  · exact Or.inl rfl
  next settled =>
    have held := not_and.mp settled
    simp only [incomplete, open_, and_self, not_true, imp_false] at held
    split
    next none => simp [none] at held
    next p some =>
      simp only [some, Option.any_some, Bool.not_eq_eq_eq_not, Bool.not_true, Bool.not_eq_false,
        Bool.and_eq_true, decide_eq_true_eq] at held
      rw [if_neg held.1.1, if_neg (by simp [held.1.2])]
      exact Or.inr ⟨_, rfl⟩

theorem of_routeGap_attach (attached : routeGap py call b gap = .attach) :
    call.reviewedWoIncomplete ∧ b.isOpen call.reviewedWorkOrderId := by
  unfold routeGap at attached
  dsimp only at attached
  split at attached
  next held => exact held.2
  next =>
    split at attached
    · cases attached
    · split at attached
      · cases attached
      · split at attached <;> cases attached

theorem mem_of_priorRow {needle : String} {p : GapWorkOrder}
    (found : priorRow call b needle = some p) :
    p ∈ b.works := by
  have member := List.mem_of_mem_head? found
  rw [List.mem_insertionSort] at member
  exact List.mem_of_mem_filter member

theorem of_routeGap_suppress {workOrderId : String}
    (suppressed : routeGap py call b gap = .suppress workOrderId) :
    ∃ p ∈ b.works, p.workOrderId = workOrderId ∧ p.status ∉ openStatuses := by
  unfold routeGap at suppressed
  dsimp only at suppressed
  split at suppressed
  · cases suppressed
  · split at suppressed
    · cases suppressed
    next p found =>
      split at suppressed
      · cases suppressed
      next closed =>
        split at suppressed
        · cases suppressed
        · cases suppressed
          exact ⟨p, mem_of_priorRow call found, rfl, closed⟩

end Route

section Step

variable (py : Stdlib) (world : GapWorld) (call : InsertCall)

def Routing.refusals (i : Nat) (b : Authority) (gap : Gap) : Routing → List Unfiled
  | .attach =>
    (attachGapTasks py world i b call.reviewedWorkOrderId call.projectId (attachTasks gap)
      (gapKeyOf py b call.projectId call.reviewedWorkOrderId gap)).1.unfiled
  | .suppress _ => []
  | .merge workOrderId => (attachGapTasks py world i b workOrderId call.projectId
    gap.tasks).1.unfiled
  | .spawn =>
    (spawnTasks world call i gap
      (spawnDescription world call gap
        (gapKeyOf py b call.projectId call.reviewedWorkOrderId gap))).2

theorem refuses_iff {i : Nat} {b : Authority} {gap : Gap} {routing : Routing}
    (route : routeGap py call b gap = routing) :
    Refuses py world call i b gap ↔ routing.refusals py world call i b gap ≠ [] := by
  unfold Refuses
  dsimp only
  rw [route]
  cases routing with
  | attach => exact attachRefuses_iff py world i b _ _
  | suppress _ => simp [Routing.refusals]
  | merge _ => exact attachRefuses_iff py world i b _ _
  | spawn => exact spawnRefuses_iff world i call gap _

structure GapStep (i : Nat) (gap : Gap) (routing : Routing) (s s' : InsertState)
    (record : GapRecord) (rows : List GapTaskRow) : Prop where
  tasks : s'.authority.tasks = s.authority.tasks ++ rows
  works : s'.authority.works = s.authority.works ∨
    ∃ w, s'.authority.works = s.authority.works ++ [w] ∧
    w.workOrderId = world.newWorkOrderId i ∧ w.status = .created
  spawned : s'.spawned = s.spawned ++ [record]
  landed : record.workOrderId = routing.workOrder world call i
  leads : routing.Leads record.route
  own : record.unfiledFindings =
    if routing = .spawn then [] else routing.refusals py world call i s.authority gap
  onSpawn : s'.unfiledOnSpawn =
    s.unfiledOnSpawn ++ if routing = .spawn then routing.refusals py world call i
      s.authority gap else []
  outcome : GapOutcome py world i (routing.workOrder world call i) (routing ≠ .spawn)
    s.authority.tasks
    (routing.asked gap) rows (routing.refusals py world call i s.authority gap)

theorem insertGap_step (base : Int) {s : InsertState} {gap : Gap} {i : Nat} {routing : Routing}
    (route : routeGap py call s.authority gap = routing) :
    ∃ record rows,
      GapStep py world call i gap routing s (insertGap py world call base s (gap, i))
        record rows := by
  cases routing with
  | attach =>
    obtain ⟨rows, filed, outcome⟩ :=
      attachGapTasks_spec py world i s.authority call.reviewedWorkOrderId
      call.projectId (gapKeyOf py s.authority call.projectId call.reviewedWorkOrderId gap)
        (attachTasks gap)
    simp only [insertGap, route]
    refine ⟨_, rows, ?_, Or.inl ?_, rfl, rfl, trivial, rfl, (List.append_nil _).symm, outcome⟩
    · dsimp only
      rw [filed]
    · dsimp only
      rw [filed]
  | suppress workOrderId =>
    simp only [insertGap, route]
    exact ⟨_, [], (List.append_nil _).symm, Or.inl rfl, rfl, rfl, trivial, rfl,
      (List.append_nil _).symm, GapOutcome.nil _ _ _ _ _ _⟩
  | merge workOrderId =>
    obtain ⟨rows, filed, outcome⟩ :=
      attachGapTasks_spec py world i s.authority workOrderId call.projectId "" gap.tasks
    simp only [insertGap, route]
    refine ⟨_, rows, ?_, Or.inl ?_, rfl, rfl, trivial, rfl, (List.append_nil _).symm, outcome⟩
    · dsimp only
      rw [filed]
    · dsimp only
      rw [filed]
  | spawn =>
    simp only [insertGap, route]
    exact ⟨_, _, rfl, Or.inr ⟨_, rfl, rfl, rfl⟩, rfl, rfl, trivial, rfl, rfl,
      spawnTasks_spec py world i call gap _ _⟩

end Step

section Run

variable {py : Stdlib} {world : GapWorld} {call : InsertCall} {a : Authority} {gaps : List Gap}

structure Extends (world : GapWorld) (n : Nat) (s s' : InsertState) : Prop where
  tasks : ∃ rows, s'.authority.tasks = s.authority.tasks ++ rows ∧
    ∀ t ∈ rows, ∃ o : Nat × Nat, n ≤ o.1 ∧ t.taskId = world.newTaskId o
  works : ∃ rows, s'.authority.works = s.authority.works ++ rows ∧
    ∀ w ∈ rows, w.status = .created ∧ ∃ i, w.workOrderId = world.newWorkOrderId i
  spawned : s.spawned <+: s'.spawned

theorem Extends.refl (n : Nat) (s : InsertState) : Extends world n s s where
  tasks := ⟨[], by simp⟩
  works := ⟨[], by simp⟩
  spawned := List.prefix_refl _

theorem Extends.step {n i : Nat} {gap : Gap} {routing : Routing} {s s' s'' : InsertState}
    {record : GapRecord} {rows : List GapTaskRow} (extended : Extends world n s s') (later : n ≤ i)
    (step : GapStep py world call i gap routing s' s'' record rows) : Extends world n s s'' where
  tasks := by
    obtain ⟨before, held, drawn⟩ := extended.tasks
    refine ⟨before ++ rows, by rw [step.tasks, held, List.append_assoc], ?_⟩
    refine List.forall_mem_append.mpr ⟨drawn, fun t member => ?_⟩
    obtain ⟨j, -, -, own, -⟩ := step.outcome.filed t member
    exact ⟨(i, j), later, own⟩
  works := by
    obtain ⟨before, held, drawn⟩ := extended.works
    rcases step.works with same | ⟨w, added, own, created⟩
    · exact ⟨before, same.trans held, drawn⟩
    · refine ⟨before ++ [w], by rw [added, held, List.append_assoc], ?_⟩
      refine List.forall_mem_append.mpr ⟨drawn, fun w' member => ?_⟩
      obtain rfl := List.mem_singleton.mp member
      exact ⟨created, i, own⟩
  spawned := by
    rw [step.spawned]
    exact extended.spawned.trans (List.prefix_append _ _)

theorem insertGaps_concat (gap : Gap) : insertGaps py world call a (gaps ++ [gap]) =
    insertGap py world call (baseSeq call a) (insertGaps py world call a gaps)
      (gap, gaps.length) := by
  rw [insertGaps, List.zipIdx_append, List.foldl_append, Nat.zero_add]
  rfl

theorem take_succ_of_getElem? {i : Nat} {gap : Gap} (found : gaps[i]? = some gap) :
    gaps.take (i + 1) = gaps.take i ++ [gap] := by
  rw [List.take_add_one, found]
  rfl

theorem length_take_of_getElem? {i : Nat} {gap : Gap} (found : gaps[i]? = some gap) :
    (gaps.take i).length = i :=
  List.length_take_of_le (lt_of_getElem?_eq_some found).le

theorem gapStep_of_getElem? (py : Stdlib) (world : GapWorld) (call : InsertCall)
    (a : Authority) {i : Nat} {gap : Gap} (found : gaps[i]? = some gap) :
    ∃ record rows, GapStep py world call i gap (routeAt py world call a gaps i gap)
      (insertGaps py world call a (gaps.take i)) (insertGaps py world call a (gaps.take (i + 1)))
      record rows := by
  rw [take_succ_of_getElem? found, insertGaps_concat, length_take_of_getElem? found]
  exact insertGap_step py world call _ rfl

theorem gapStep_concat (py : Stdlib) (world : GapWorld) (gap : Gap) : ∃ record rows,
    GapStep py world call gaps.length gap
      (routeGap py call (insertGaps py world call a gaps).authority gap)
        (insertGaps py world call a gaps) (insertGaps py world call a (gaps ++ [gap]))
          record rows := by
  rw [insertGaps_concat]
  exact insertGap_step py world call _ rfl

theorem insertGaps_extends (py : Stdlib) (world : GapWorld) (call : InsertCall) (a : Authority)
    (gaps : List Gap) (n : Nat) :
    Extends world n (insertGaps py world call a (gaps.take n))
      (insertGaps py world call a gaps) := by
  induction gaps using List.reverseRecOn with
  | nil =>
    rw [List.take_nil]
    exact Extends.refl n _
  | append_singleton gaps gap ih =>
    rcases Nat.lt_or_ge gaps.length n with beyond | within
    · rw [List.take_of_length_le (by simp; omega)]
      exact Extends.refl n _
    · obtain ⟨record, rows, step⟩ := gapStep_concat py world gap
      rw [List.take_append_of_le_length within]
      exact ih.step within step

theorem length_spawned (py : Stdlib) (world : GapWorld) (call : InsertCall) (a : Authority)
    (gaps : List Gap) :
    (insertGaps py world call a gaps).spawned.length = gaps.length := by
  induction gaps using List.reverseRecOn with
  | nil => rfl
  | append_singleton gaps gap ih =>
    obtain ⟨record, rows, step⟩ := gapStep_concat _ _ gap
    rw [step.spawned, List.length_append, ih, List.length_append, List.length_singleton,
      List.length_singleton]

theorem drawn_of_mem {t : GapTaskRow}
    (member : t ∈ (insertGaps py world call a gaps).authority.tasks) :
    t ∈ a.tasks ∨ ∃ o : Nat × Nat, o.1 < gaps.length ∧ t.taskId = world.newTaskId o := by
  induction gaps using List.reverseRecOn with
  | nil => exact Or.inl member
  | append_singleton gaps gap ih =>
    obtain ⟨record, rows, step⟩ := gapStep_concat _ _ gap
    rw [step.tasks] at member
    rw [List.length_append, List.length_singleton]
    rcases List.mem_append.mp member with before | new
    · refine (ih before).imp_right ?_
      rintro ⟨o, within, own⟩
      exact ⟨o, by omega, own⟩
    · obtain ⟨j, -, -, own, -⟩ := step.outcome.filed t new
      exact Or.inr ⟨_, Nat.lt_succ_self _, own⟩

theorem mem_unfiledOnSpawn {item : Unfiled} :
    item ∈ (insertGaps py world call a gaps).unfiledOnSpawn ↔
      ∃ (i : Nat) (gap : Gap), gaps[i]? = some gap ∧ routeAt py world call a gaps i gap = .spawn ∧
        item ∈ Routing.spawn.refusals py world call i (authorityAt py world call a gaps i) gap := by
  unfold routeAt authorityAt
  induction gaps using List.reverseRecOn with
  | nil => simp [insertGaps]
  | append_singleton gaps gap ih =>
    obtain ⟨record, rows, step⟩ := gapStep_concat _ _ gap
    rw [step.onSpawn, List.mem_append, ih]
    refine Iff.trans ?_ (exists_getElem?_concat (P := fun i before gap =>
      routeGap py call (insertGaps py world call a before).authority gap = .spawn ∧
        item ∈ Routing.spawn.refusals py world call i
          (insertGaps py world call a before).authority gap)).symm
    refine or_congr Iff.rfl ?_
    split
    next spawned => simp [spawned]
    next => simp_all

theorem isOpen_reviewed (fresh : Fresh world call a) (i : Nat) :
    (authorityAt py world call a gaps i).isOpen call.reviewedWorkOrderId =
      a.isOpen call.reviewedWorkOrderId := by
  obtain ⟨rows, held, drawn⟩ := (insertGaps_extends py world call a (gaps.take i) 0).works
  have absent : rows.find? (·.workOrderId = call.reviewedWorkOrderId) = none := by
    refine List.find?_eq_none.mpr fun w member same => ?_
    obtain ⟨-, k, own⟩ := drawn w member
    exact fresh.reviewed k ((of_decide_eq_true same).symm.trans own)
  unfold authorityAt Authority.isOpen
  rw [held, List.find?_append, absent, Option.or_none]
  rfl

theorem not_spawn_of_attach (fresh : Fresh world call a) {i k : Nat} {gap other : Gap}
    (attached : routeAt py world call a gaps i gap = .attach) :
    routeAt py world call a gaps k other ≠ .spawn := by
  obtain ⟨incomplete, open_⟩ := of_routeGap_attach call attached
  rw [isOpen_reviewed fresh, ← @isOpen_reviewed py world call a gaps fresh k] at open_
  rcases routeGap_of_incomplete call incomplete open_ with route | ⟨workOrderId, route⟩ <;>
    exact fun spawned => nomatch route.symm.trans spawned

theorem suppressed_old (fresh : Fresh world call a) {i k : Nat} {gap : Gap} {workOrderId : String}
    (suppressed : routeAt py world call a gaps k gap = .suppress workOrderId) :
    workOrderId ≠ world.newWorkOrderId i := by
  obtain ⟨p, member, rfl, closed⟩ := of_routeGap_suppress call suppressed
  obtain ⟨rows, held, drawn⟩ := (insertGaps_extends py world call a (gaps.take k) 0).works
  unfold authorityAt at member
  rw [held] at member
  rcases List.mem_append.mp member with old | new
  · exact fresh.works i p old
  · rw [(drawn p new).1] at closed
    exact absurd (by decide) closed

end Run

section Returned

variable {py : Stdlib} {world : GapWorld} {call : InsertCall} {a : Authority} {gaps : List Gap}

theorem getElem?_redistribute {records : List GapRecord} {items : List Unfiled}
    (landed : ∀ item ∈ items, item.spawnedWorkOrderId ∈ records.map fun r => some r.workOrderId)
    (k : Nat) :
    (redistribute records items)[k]? = records[k]?.map fun r =>
      if items = [] then r
      else { r with unfiledFindings := items.filter (·.spawnedWorkOrderId.getD "" = r.workOrderId) } := by
  unfold redistribute
  split
  next => simp
  next =>
    have orphaned : (items.filter fun item =>
        item.spawnedWorkOrderId ∉ records.map fun r => some r.workOrderId) = [] :=
      List.filter_eq_nil_iff.mpr fun item member => by simpa using landed item member
    dsimp only
    rw [orphaned]
    cases records with
    | nil => rfl
    | cons r rs =>
      rw [List.map_cons]
      dsimp only
      rw [List.append_nil, ← List.getElem?_map]
      rfl

structure Returned (py : Stdlib) (world : GapWorld) (call : InsertCall) (a : Authority)
    (gaps : List Gap) (k : Nat) (gap : Gap) (record : GapRecord) : Prop where
  landed : record.workOrderId = (routeAt py world call a gaps k gap).workOrder world call k
  leads : (routeAt py world call a gaps k gap).Leads record.route
  calm : (insertGaps py world call a gaps).unfiledOnSpawn = [] → record.unfiledFindings =
    (routeAt py world call a gaps k gap).refusals py world call k
      (authorityAt py world call a gaps k) gap
  spread : (insertGaps py world call a gaps).unfiledOnSpawn ≠ [] → record.unfiledFindings =
    (insertGaps py world call a gaps).unfiledOnSpawn.filter
      (·.spawnedWorkOrderId.getD "" = record.workOrderId)

theorem getElem?_spawned (py : Stdlib) (world : GapWorld) (call : InsertCall)
    (a : Authority) {k : Nat} {gap : Gap} (found : gaps[k]? = some gap) : ∃ record rows,
    GapStep py world call k gap (routeAt py world call a gaps k gap)
      (insertGaps py world call a (gaps.take k)) (insertGaps py world call a (gaps.take (k + 1)))
      record rows ∧ (insertGaps py world call a gaps).spawned[k]? = some record := by
  obtain ⟨record, rows, step⟩ := gapStep_of_getElem? py world call a found
  refine ⟨record, rows, step, ?_⟩
  obtain ⟨rest, held⟩ := (insertGaps_extends py world call a gaps (k + 1)).spawned
  have before : (insertGaps py world call a (gaps.take k)).spawned.length = k := by
    rw [length_spawned, length_take_of_getElem? found]
  rw [← held, step.spawned, List.append_assoc, List.getElem?_append_right (by omega),
    before, Nat.sub_self]
  rfl

theorem refusal_spawned {k : Nat} {gap : Gap} (found : gaps[k]? = some gap)
    (route : routeAt py world call a gaps k gap = .spawn) {item : Unfiled}
    (member : item ∈ Routing.spawn.refusals py world call k
      (authorityAt py world call a gaps k) gap) :
    item.spawnedWorkOrderId = some (world.newWorkOrderId k) := by
  obtain ⟨record, rows, step⟩ := gapStep_of_getElem? py world call a found
  rw [route] at step
  exact step.outcome.spawned item member

theorem landed_of_mem {item : Unfiled}
    (member : item ∈ (insertGaps py world call a gaps).unfiledOnSpawn) :
    item.spawnedWorkOrderId ∈
      (insertGaps py world call a gaps).spawned.map fun r => some r.workOrderId := by
  obtain ⟨i, gap, found, route, refused⟩ := mem_unfiledOnSpawn.mp member
  obtain ⟨record, rows, step, there⟩ := getElem?_spawned py world call a found
  rw [refusal_spawned found route refused]
  refine List.mem_map.mpr ⟨record, List.mem_of_getElem? there, ?_⟩
  rw [step.landed, route]
  rfl

theorem returned_of_getElem? (py : Stdlib) (world : GapWorld) (call : InsertCall)
    (a : Authority) {k : Nat} {gap : Gap} (found : gaps[k]? = some gap) :
    ∃ record, (insertGapWorkOrders py world call a gaps).1[k]? = some record ∧
      Returned py world call a gaps k gap record := by
  obtain ⟨record, rows, step, there⟩ := getElem?_spawned py world call a found
  refine ⟨_, (getElem?_redistribute (fun _ => landed_of_mem) k).trans (congrArg _ there), ?_⟩
  split
  next none =>
    refine ⟨step.landed, step.leads, fun _ => ?_, fun some => absurd none some⟩
    rw [step.own]
    split
    next spawned =>
      rw [spawned, eq_comm, List.eq_nil_iff_forall_not_mem]
      intro item refused
      have member := mem_unfiledOnSpawn.mpr ⟨k, gap, found, spawned, refused⟩
      rw [none] at member
      cases member
    next => rfl
  next some => exact ⟨step.landed, step.leads, fun none => absurd none some, fun _ => rfl⟩

theorem lt_of_returned {k : Nat} {record : GapRecord}
    (there : (insertGapWorkOrders py world call a gaps).1[k]? = some record) :
    ∃ gap, gaps[k]? = some gap ∧ Returned py world call a gaps k gap record := by
  have within : k < gaps.length := by
    rw [insertGapWorkOrders, getElem?_redistribute fun _ => landed_of_mem,
      Option.map_eq_some_iff] at there
    obtain ⟨record', there', -⟩ := there
    rw [← length_spawned py world call a gaps]
    exact lt_of_getElem?_eq_some there'
  obtain ⟨record', there', returned⟩ :=
    returned_of_getElem? py world call a (List.getElem?_eq_getElem within)
  obtain rfl := Option.some.inj (there.symm.trans there')
  exact ⟨_, List.getElem?_eq_getElem within, returned⟩

end Returned

section Exact

variable {py : Stdlib} {world : GapWorld} {call : InsertCall} {a : Authority} {gaps : List Gap}

theorem asked_of_getElem? {routing : Routing} {gap : Gap} {j : Nat} {task : GapTask}
    (found : gap.tasks[j]? = some task) (route : ∀ workOrderId, routing ≠ .suppress workOrderId) :
    routing.asked gap = gap.tasks := by
  cases routing with
  | attach =>
    refine if_neg fun empty => ?_
    rw [empty] at found
    cases found
  | suppress workOrderId => exact absurd rfl (route workOrderId)
  | merge _ => rfl
  | spawn => rfl

theorem mem_tasks_after {i : Nat} {gap : Gap} {routing : Routing} {record : GapRecord}
    {rows : List GapTaskRow}
    (step : GapStep py world call i gap routing (insertGaps py world call a (gaps.take i))
      (insertGaps py world call a (gaps.take (i + 1))) record rows) :
    (∀ t ∈ (authorityAt py world call a gaps i).tasks ++ rows,
      t ∈ (insertGapWorkOrders py world call a gaps).2.tasks) ∧
    ∀ t ∈ (insertGapWorkOrders py world call a gaps).2.tasks,
      t ∈ (authorityAt py world call a gaps i).tasks ++ rows ∨
        ∃ o : Nat × Nat, i < o.1 ∧ t.taskId = world.newTaskId o := by
  obtain ⟨later, held, drawn⟩ := (insertGaps_extends py world call a gaps (i + 1)).tasks
  rw [step.tasks] at held
  have after : (insertGapWorkOrders py world call a gaps).2.tasks =
      ((authorityAt py world call a gaps i).tasks ++ rows) ++ later := held
  rw [after]
  exact ⟨fun t => List.mem_append_left later, fun t member =>
    (List.mem_append.mp member).imp_right (drawn t)⟩

theorem filed_or_refused {i j : Nat} {gap : Gap} {task : GapTask} {record : GapRecord}
    (found : gaps[i]? = some gap) (asked : gap.tasks[j]? = some task)
    (returned : Returned py world call a gaps i gap record) :
    FiledOn world (insertGapWorkOrders py world call a gaps).2 record (i, j) task ∨
      SkippedOn py world a (insertGapWorkOrders py world call a gaps).2 record (i, j) task ∨
        record.route = .respawnSuppressed ∨
          ∃ item ∈ (routeAt py world call a gaps i gap).refusals py world call i
            (authorityAt py world call a gaps i) gap, item.origin = (i, j) := by
  obtain ⟨record', rows, step⟩ := gapStep_of_getElem? py world call a found
  obtain ⟨landed, leads, -, -⟩ := returned
  have there := (mem_tasks_after step).1
  by_cases route : ∃ workOrderId, routeAt py world call a gaps i gap = .suppress workOrderId
  · obtain ⟨workOrderId, route⟩ := route
    rw [route] at leads
    refine Or.inr (Or.inr (Or.inl ?_))
    cases own : record.route <;> simp_all [Routing.Leads]
  · have put := asked_of_getElem? asked (not_exists.mp route)
    rcases step.outcome.each j task
      (put ▸ asked) with ⟨t, member, own, work, title⟩ | refused | skipped
    · exact Or.inl ⟨t, there t (List.mem_append_right _ member), own, work.trans landed.symm, title⟩
    · exact Or.inr (Or.inr (Or.inr refused))
    · obtain ⟨skips, t, member, work, title, old⟩ := skipped
      refine Or.inr (Or.inl ⟨?_, t, there t member, work.trans landed.symm, title, ?_⟩)
      · have route' := of_decide_eq_true skips
        revert leads route route'
        cases routeAt py world call a gaps i gap <;> cases record.route <;>
          simp [Routing.Leads, GapRoute.SkipsHeld]
      · rcases old with held | ⟨j', before, own⟩
        · refine (drawn_of_mem held).imp_right ?_
          rintro ⟨o, within, own⟩
          rw [length_take_of_getElem? found] at within
          exact ⟨o, Or.inl within, own⟩
        · exact Or.inr ⟨(i, j'), Or.inr ⟨rfl, before⟩, own⟩

theorem origin_of_refusal {i : Nat} {gap : Gap} (found : gaps[i]? = some gap) {item : Unfiled}
    (refused : item ∈ (routeAt py world call a gaps i gap).refusals py world call i
      (authorityAt py world call a gaps i) gap) :
    ∃ (j : Nat) (task : GapTask), ((routeAt py world call a gaps i gap).asked gap)[j]? = some task ∧
      item.origin = (i, j) := by
  obtain ⟨record, rows, step⟩ := gapStep_of_getElem? py world call a found
  obtain ⟨j, task, asked, origin, -⟩ := step.outcome.refused item refused
  exact ⟨j, task, asked, origin⟩

theorem refused_only {i j : Nat} {gap : Gap} {task : GapTask} {record : GapRecord} {item : Unfiled}
    (fresh : Fresh world call a) (found : gaps[i]? = some gap) (asked : gap.tasks[j]? = some task)
    (returned : Returned py world call a gaps i gap record)
    (refused : item ∈ (routeAt py world call a gaps i gap).refusals py world call i
      (authorityAt py world call a gaps i) gap) (origin : item.origin = (i, j)) :
    ¬FiledOn world (insertGapWorkOrders py world call a gaps).2 record (i, j) task ∧
      ¬SkippedOn py world a (insertGapWorkOrders py world call a gaps).2 record (i, j) task := by
  obtain ⟨record', rows, step⟩ := gapStep_of_getElem? py world call a found
  have route : ∀ workOrderId, routeAt py world call a gaps i gap ≠ .suppress workOrderId := by
    intro workOrderId route
    rw [route] at refused
    cases refused
  have back := (mem_tasks_after step).2
  constructor
  · rintro ⟨t, member, own, -⟩
    rcases back t member with held | ⟨o, later, own'⟩
    · rcases List.mem_append.mp held with before | new
      · rcases drawn_of_mem before with old | ⟨o, within, own'⟩
        · exact fresh.tasks _ t old own
        · rw [length_take_of_getElem? found] at within
          obtain rfl := fresh.task _ _ (own.symm.trans own')
          exact Nat.lt_irrefl _ within
      · obtain ⟨j', -, -, own', clear⟩ := step.outcome.filed t new
        obtain rfl := (Prod.mk.inj (fresh.task _ _ (own.symm.trans own'))).2
        exact clear item refused origin
    · obtain rfl := fresh.task _ _ (own.symm.trans own')
      exact Nat.lt_irrefl _ later
  · rintro ⟨skips, t, member, work, title, old⟩
    have early : ∀ o : Nat × Nat, t.taskId = world.newTaskId o → Before o (i, j) := by
      intro o own
      rcases old with old | ⟨o', before, own'⟩
      · exact absurd own (fresh.tasks o t old)
      · exact fresh.task _ _ (own'.symm.trans own) ▸ before
    rcases back t member with held | ⟨o, later, own⟩
    · obtain ⟨j', task', asked', origin', after⟩ := step.outcome.refused item refused
      rw [origin, Prod.mk.injEq] at origin'
      obtain ⟨-, rfl⟩ := origin'
      rw [asked_of_getElem? asked route] at asked'
      obtain rfl := Option.some.inj (asked.symm.trans asked')
      have skipping : routeAt py world call a gaps i gap ≠ .spawn := by
        intro spawned
        have leads := returned.leads
        rw [spawned] at leads
        revert leads skips
        cases record.route <;> simp [Routing.Leads, GapRoute.SkipsHeld]
      obtain ⟨j', beyond, own⟩ :=
        after (decide_eq_true skipping) t held (work.trans returned.landed) title
      rcases early _ own with before | ⟨-, before⟩
      · exact Nat.lt_irrefl _ before
      · exact Nat.lt_asymm before beyond
    · rcases early o own with before | ⟨same, -⟩
      · exact Nat.lt_asymm before later
      · exact Nat.ne_of_gt later same

theorem unfiledOnSpawn_eq_nil
    (none : ∀ (i : Nat) (gap : Gap), gaps[i]? = some gap →
      routeAt py world call a gaps i gap = .spawn →
      ¬Refuses py world call i (authorityAt py world call a gaps i) gap) :
    (insertGaps py world call a gaps).unfiledOnSpawn = [] := by
  refine List.eq_nil_iff_forall_not_mem.mpr fun item member => ?_
  obtain ⟨i, gap, found, route, refused⟩ := mem_unfiledOnSpawn.mp member
  exact none i gap found route ((refuses_iff py world call route).mpr (List.ne_nil_of_mem refused))

theorem reported_of_calm {i j : Nat} {gap : Gap} {item : Unfiled} (found : gaps[i]? = some gap)
    (calm : (insertGaps py world call a gaps).unfiledOnSpawn = [])
    (refused : item ∈ (routeAt py world call a gaps i gap).refusals py world call i
      (authorityAt py world call a gaps i) gap) (origin : item.origin = (i, j)) :
    ∃! k, ReportedIn (insertGapWorkOrders py world call a gaps).1 (i, j) k := by
  obtain ⟨record, there, returned⟩ := returned_of_getElem? py world call a found
  refine ⟨i, ⟨record, there, item, by rw [returned.calm calm]; exact refused, origin⟩, ?_⟩
  rintro k ⟨record', there', item', member, origin'⟩
  obtain ⟨other, found', returned'⟩ := lt_of_returned there'
  rw [returned'.calm calm] at member
  obtain ⟨j', -, -, own⟩ := origin_of_refusal found' member
  exact (Prod.mk.inj (own.symm.trans origin')).1

theorem spawned_of_reported {i j k : Nat}
    (spread : (insertGaps py world call a gaps).unfiledOnSpawn ≠ [])
    (reported : ReportedIn (insertGapWorkOrders py world call a gaps).1 (i, j) k) :
    ∃ gap, gaps[i]? = some gap ∧ routeAt py world call a gaps i gap = .spawn := by
  obtain ⟨record, there, item, member, origin⟩ := reported
  obtain ⟨other, -, returned⟩ := lt_of_returned there
  rw [returned.spread spread] at member
  obtain ⟨i', gap, found, route, refused⟩ := mem_unfiledOnSpawn.mp (List.mem_of_mem_filter member)
  obtain ⟨j', -, -, own⟩ := origin_of_refusal found (route.symm ▸ refused)
  obtain ⟨rfl, -⟩ := Prod.mk.inj (own.symm.trans origin)
  exact ⟨gap, found, route⟩

theorem reportedIn_spawned {i k : Nat} {gap other : Gap} {item : Unfiled}
    (found : gaps[i]? = some gap) (route : routeAt py world call a gaps i gap = .spawn)
    (refused : item ∈ Routing.spawn.refusals py world call i
      (authorityAt py world call a gaps i) gap) (found' : gaps[k]? = some other) :
    ReportedIn (insertGapWorkOrders py world call a gaps).1 item.origin k ↔
      (routeAt py world call a gaps k other).workOrder world call k = world.newWorkOrderId i := by
  have member : item ∈ (insertGaps py world call a gaps).unfiledOnSpawn :=
    mem_unfiledOnSpawn.mpr ⟨i, gap, found, route, refused⟩
  obtain ⟨record, there, returned⟩ := returned_of_getElem? py world call a found'
  have findings := returned.spread (List.ne_nil_of_mem member)
  rw [← returned.landed]
  constructor
  · rintro ⟨record', there', item', member', origin⟩
    obtain rfl := Option.some.inj (there.symm.trans there')
    rw [findings, List.mem_filter] at member'
    obtain ⟨held, landed⟩ := member'
    obtain ⟨i', gap', found', route', refused'⟩ := mem_unfiledOnSpawn.mp held
    obtain ⟨j, -, -, own⟩ := origin_of_refusal found (route.symm ▸ refused)
    obtain ⟨j', -, -, own'⟩ := origin_of_refusal found' (route'.symm ▸ refused')
    obtain ⟨rfl, -⟩ := Prod.mk.inj (own'.symm.trans (origin.trans own))
    rw [refusal_spawned found' route' refused'] at landed
    exact (of_decide_eq_true landed).symm
  · intro landed
    refine ⟨record, there, item, ?_, rfl⟩
    rw [findings, List.mem_filter, refusal_spawned found route refused]
    exact ⟨member, decide_eq_true landed.symm⟩

theorem reported_of_noneDisappears {i j : Nat} {gap : Gap} {task : GapTask} {item : Unfiled}
    (fresh : Fresh world call a) (kept : NoneDisappears py world call a gaps)
    (found : gaps[i]? = some gap) (asked : gap.tasks[j]? = some task)
    (refused : item ∈ (routeAt py world call a gaps i gap).refusals py world call i
      (authorityAt py world call a gaps i) gap) (origin : item.origin = (i, j)) :
    ∃! k, ReportedIn (insertGapWorkOrders py world call a gaps).1 (i, j) k := by
  obtain ⟨record, there, accounted⟩ := kept i gap j task found asked
  obtain ⟨record', there', returned⟩ := returned_of_getElem? py world call a found
  obtain rfl := Option.some.inj (there.symm.trans there')
  obtain ⟨unfiled, unskipped⟩ := refused_only fresh found asked returned refused origin
  refine ((accounted.resolve_left unfiled).resolve_left unskipped).resolve_left fun suppressed => ?_
  have leads := returned.leads
  rw [suppressed] at leads
  cases route : routeAt py world call a gaps i gap with
  | suppress workOrderId =>
    rw [route] at refused
    cases refused
  | attach => exact absurd leads (by rw [route]; exact id)
  | merge workOrderId => exact absurd leads (by rw [route]; exact id)
  | spawn => exact absurd leads (by rw [route]; exact id)

theorem reported_of_unmerged {i j : Nat} {gap : Gap} {item : Unfiled} (fresh : Fresh world call a)
    (found : gaps[i]? = some gap) (route : routeAt py world call a gaps i gap = .spawn)
    (refused : item ∈ Routing.spawn.refusals py world call i
      (authorityAt py world call a gaps i) gap) (origin : item.origin = (i, j))
    (unmerged : ∀ (k : Nat) (other : Gap) (workOrderId : String), gaps[k]? = some other →
      routeAt py world call a gaps k other = .merge workOrderId →
        workOrderId ≠ world.newWorkOrderId i) :
    ∃! k, ReportedIn (insertGapWorkOrders py world call a gaps).1 (i, j) k := by
  rw [← origin]
  refine ⟨i, (reportedIn_spawned found route refused found).mpr (by rw [route]; rfl),
    fun k reported => ?_⟩
  obtain ⟨record, there, -⟩ := id reported
  obtain ⟨other, found', -⟩ := lt_of_returned there
  have landed := (reportedIn_spawned found route refused found').mp reported
  cases route' : routeAt py world call a gaps k other with
  | attach =>
    rw [route'] at landed
    exact absurd landed (fresh.reviewed i)
  | suppress workOrderId =>
    rw [route'] at landed
    exact absurd landed (suppressed_old fresh route')
  | merge workOrderId =>
    rw [route'] at landed
    exact absurd landed (unmerged k other workOrderId found' route')
  | spawn =>
    rw [route'] at landed
    exact fresh.work k i landed

/-- No finding disappears exactly where the last pass overwrites and repeats no report. -/
theorem noneDisappears_iff (fresh : Fresh world call a) :
    NoneDisappears py world call a gaps ↔ ReportsKept py world call a gaps := by
  constructor
  · intro kept i gap found route refuses k other workOrderId found' merged
    obtain ⟨item, refused⟩ :=
      List.exists_mem_of_ne_nil _ ((refuses_iff py world call route).mp refuses)
    have spread : (insertGaps py world call a gaps).unfiledOnSpawn ≠ [] :=
      List.ne_nil_of_mem (mem_unfiledOnSpawn.mpr ⟨i, gap, found, route, refused⟩)
    constructor
    · rintro rfl
      obtain ⟨j, task, asked, origin⟩ := origin_of_refusal found (route.symm ▸ refused)
      rw [route] at asked
      obtain ⟨only, -, unique⟩ :=
        reported_of_noneDisappears fresh kept found asked (route.symm ▸ refused) origin
      have here := (reportedIn_spawned found route refused found).mpr (by rw [route]; rfl)
      have twice := (reportedIn_spawned found route refused found').mpr (by rw [merged]; rfl)
      rw [origin] at here twice
      obtain rfl : i = k := (unique i here).trans (unique k twice).symm
      obtain rfl := Option.some.inj (found.symm.trans found')
      cases route.symm.trans merged
    · intro refuses'
      obtain ⟨item', refused'⟩ :=
        List.exists_mem_of_ne_nil _ ((refuses_iff py world call merged).mp refuses')
      obtain ⟨j, task, asked, origin⟩ := origin_of_refusal found' (merged.symm ▸ refused')
      rw [merged] at asked
      obtain ⟨only, reported, -⟩ :=
        reported_of_noneDisappears fresh kept found' asked (merged.symm ▸ refused') origin
      obtain ⟨gap', found'', spawned⟩ := spawned_of_reported spread reported
      obtain rfl := Option.some.inj (found'.symm.trans found'')
      cases merged.symm.trans spawned
  · intro kept i gap j task found asked
    obtain ⟨record, there, returned⟩ := returned_of_getElem? py world call a found
    refine ⟨record, there, ?_⟩
    rcases filed_or_refused found asked returned with filed | skipped | suppressed | ⟨item,
      refused, origin⟩
    · exact Or.inl filed
    · exact Or.inr (Or.inl skipped)
    · exact Or.inr (Or.inr (Or.inl suppressed))
    · refine Or.inr (Or.inr (Or.inr ?_))
      cases route : routeAt py world call a gaps i gap with
      | attach =>
        refine reported_of_calm found (unfiledOnSpawn_eq_nil fun k other _ spawned => ?_)
          refused origin
        exact absurd spawned (not_spawn_of_attach fresh route)
      | suppress workOrderId =>
        rw [route] at refused
        cases refused
      | merge workOrderId =>
        refine reported_of_calm found
          (unfiledOnSpawn_eq_nil fun k other there' spawned refuses => ?_)
          refused origin
        refine (kept k other there' spawned refuses i gap workOrderId found route).2 ?_
        exact (refuses_iff py world call route).mpr (List.ne_nil_of_mem (route ▸ refused))
      | spawn =>
        rw [route] at refused
        have refuses := (refuses_iff py world call route).mpr (List.ne_nil_of_mem refused)
        exact reported_of_unmerged fresh found route refused origin fun k other workOrderId
          found' merged =>
          (kept i gap found route refuses k other workOrderId found' merged).1

theorem not_noneDisappears {gap : Gap} {task : GapTask} (i j : Nat) (found : gaps[i]? = some gap)
    (asked : gap.tasks[j]? = some task)
    (unfiled : (insertGapWorkOrders py world call a gaps).2.tasks = [])
    (unsuppressed : (insertGapWorkOrders py world call a gaps).1.all
      fun record => !(record.route matches .respawnSuppressed))
    (unreported : (i, j) ∉
      ((insertGapWorkOrders py world call a gaps).1.flatMap (·.unfiledFindings)).map (·.origin)) :
    ¬NoneDisappears py world call a gaps := by
  intro kept
  obtain ⟨record, there, filed | skipped | suppressed | ⟨k, reported, -⟩⟩ :=
    kept i gap j task found asked
  · obtain ⟨t, member, -⟩ := filed
    exact List.eq_nil_iff_forall_not_mem.mp unfiled t member
  · obtain ⟨-, t, member, -⟩ := skipped
    exact List.eq_nil_iff_forall_not_mem.mp unfiled t member
  · have route := List.all_eq_true.mp unsuppressed record (List.mem_of_getElem? there)
    rw [suppressed] at route
    cases route
  · obtain ⟨record', there', item, member, origin⟩ := reported
    refine unreported (List.mem_map.mpr ⟨item, ?_, origin⟩)
    exact List.mem_flatMap.mpr ⟨record', List.mem_of_getElem? there', member⟩

end Exact

section Example

def strict : GapWorld where
  now := "2026-09-10T00:00:00+00:00"
  newWorkOrderId i := String.ofList ('#' :: List.replicate i '+')
  newTaskId o := String.ofList (List.replicate o.1 '+' ++ 't' :: List.replicate o.2 '+')
  admitTask _ request :=
    if uncriterioned request.acceptanceCriteria then ⟨false, ["no executable criterion"], []⟩
    else ⟨true, [], []⟩
  taskEmitted _ := true
  workOrderEmitted _ := true

def certifying : InsertCall where
  projectId := "p"
  milestoneId := none
  reviewedWorkOrderId := "wo"
  reviewedWoTitle := "Parser"
  reviewedWoSequence := none
  reviewedWoIncomplete := false

def typingGap : Gap where
  title := "Annotate the parser"
  description := "No signature is typed."
  category := some "typing"
  tasks := [{ title := "Annotate the parser" }]

def docsGap : Gap where
  title := "Document the parser"
  description := "No docstring says what is parsed."
  category := some "docs"
  tasks := [{ title := "Document the parser" }]

def docsWork : GapWorkOrder where
  __ := openWork "docs"
  description := some "Spawned by review of 'Parser': no docstrings [gap-key: wo::docs]"

theorem replicate_split {m n m' n' : Nat} {c d : Char} (apart : c ≠ d)
    (same : List.replicate m c ++ d :: List.replicate n c = List.replicate m' c ++
      d :: List.replicate n' c) :
    m = m' ∧ n = n' := by
  have before : ∀ m n, (List.replicate m c ++ d :: List.replicate n c).takeWhile (· == c) =
      List.replicate m c := by
    intro m n
    rw [List.takeWhile_append_of_pos (by simp),
      List.takeWhile_cons_of_neg (by simpa using apart.symm),
      List.append_nil]
  have length := congrArg List.length same
  have start := congrArg (fun text => (text.takeWhile (· == c)).length) same
  simp only [before, List.length_replicate] at start
  simp only [List.length_append, List.length_replicate, List.length_cons] at length
  omega

def reviewedOnce : Authority := ⟨[openWork "wo", docsWork], []⟩

theorem strict_fresh : Fresh strict certifying reviewedOnce where
  task o o' same := by
    obtain ⟨first, second⟩ := replicate_split (by decide) (String.ofList_injective same)
    exact Prod.ext first second
  work i i' same := by
    have length := congrArg List.length (String.ofList_injective same)
    simpa using length
  tasks o t member := by cases member
  works i w member same := by
    have apart : ∀ w ∈ reviewedOnce.works, w.workOrderId.toList.head? ≠ some '#' := by decide
    refine apart w member ?_
    rw [same]
    exact congrArg List.head? String.toList_ofList
  reviewed i same := by
    have start : certifying.reviewedWorkOrderId.toList.head? = some '#' := by
      rw [same]
      exact congrArg List.head? String.toList_ofList
    exact absurd start (by decide)

/-- One finding, refused on a spawn, is reported. -/
theorem refused_spawn_reported :
    NoneDisappears plainLibrary strict certifying reviewedOnce [typingGap] := by
  refine (noneDisappears_iff strict_fresh).mpr fun i gap _ _ _ k other workOrderId
    found merged => ?_
  obtain ⟨rfl, rfl⟩ : k = 0 ∧ other = typingGap := by
    cases k with
    | zero => exact ⟨rfl, (Option.some.inj found).symm⟩
    | succ k => cases found
  have spawned : routeAt plainLibrary strict certifying reviewedOnce [typingGap] 0 typingGap =
      .spawn := by
    decide +kernel
  cases spawned.symm.trans merged

/-- The refusal of a task that is merged is gone once one is refused on a spawn. -/
theorem merged_refusal_lost :
    ¬NoneDisappears plainLibrary strict certifying reviewedOnce [typingGap, docsGap] := by
  refine @not_noneDisappears _ _ _ _ _ docsGap _ 1 0 rfl rfl ?_ ?_ ?_
  · decide +kernel
  · decide +kernel
  · decide +kernel

end Example

end DreamStudio.WorkOrders
