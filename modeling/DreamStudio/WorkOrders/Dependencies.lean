import DreamStudio.Library.Acyclic
import DreamStudio.Library.Machine
import DreamStudio.WorkOrders.Mutations

namespace DreamStudio.WorkOrders

open Library Projections

/-- The work orders, and the rows of `work_order_dependencies`: who waits, and for whom. -/
structure DependencyPlan where
  works : WorkOrderTable
  edges : List (String × String)

inductive DependencyReply
  | refused (error : String)
  | alreadyExists
  | done
  deriving DecidableEq

namespace DependencyPlan

def has (p : DependencyPlan) (workOrderId : String) : Bool :=
  p.works.any (·.workOrderId = some workOrderId)

local instance edges_lawful : LawfulBEq (String × String) := inferInstance

/-- `add_dependency`. -/
def addDependency (p : DependencyPlan) (workOrderId dependsOnId : String) :
    DependencyReply × DependencyPlan :=
  if workOrderId = dependsOnId then (.refused "A work order cannot depend on itself", p)
  else if !p.has workOrderId then (.refused ("Work order '" ++ workOrderId ++ "' not found"), p)
  else if !p.has dependsOnId then
    (.refused ("Dependency target '" ++ dependsOnId ++ "' not found"), p)
  else if (workOrderId, dependsOnId) ∈ p.edges then (.alreadyExists, p)
  else (.done, { p with edges := p.edges ++ [(workOrderId, dependsOnId)] })

/-- `remove_dependency`. -/
def removeDependency (p : DependencyPlan) (workOrderId dependsOnId : String) :
    DependencyReply × DependencyPlan :=
  if !p.has workOrderId then (.refused ("Work order '" ++ workOrderId ++ "' not found"), p)
  else if (workOrderId, dependsOnId) ∈ p.edges then
    (.done, { p with edges := p.edges.filter (· ≠ (workOrderId, dependsOnId)) })
  else (.refused "Dependency edge not found", p)

/-- `blocking_dependency_count`. -/
def blockingDependencyCount (p : DependencyPlan) (workOrderId : String) : Nat :=
  ((p.edges.filter (·.1 = workOrderId)).flatMap fun (_, dependsOnId) =>
    p.works.filter fun dep => dep.workOrderId = some dependsOnId ∧ dep.status ≠ .closed).length

/-- A lifecycle call on a work order: what it checks, then its UPDATE. -/
def call (remembers : Bool) (p : DependencyPlan) (workOrderId : String) (c : Call) (now : Now) :
    DependencyPlan :=
  match Table.lookup WorkOrderRow.key workOrderId p.works with
  | none => p
  | some r =>
    match c.check workOrderId r.status with
    | .proceeds f =>
      let u := f.update remembers r
      { p with
        works := Table.update (fun r => r.workOrderId = some workOrderId ∧ u.finds r.status)
          (u.write remembers now) p.works }
    | _ => p

end DependencyPlan

inductive PlanStep
  | create (workOrderId : String) (projectId : Text) (now : Now)
  | addDependency (workOrderId dependsOnId : String)
  | removeDependency (workOrderId dependsOnId : String)
  | call (workOrderId : String) (c : Call) (now : Now)
  | cancel (workOrderId : String) (eventId : String) (now : Now)
  | delete (workOrderId : String) (eventId : String) (now : Now)
  | deleteProject (projectId : String)

/-- What may happen to work orders and their dependencies. A work order gets an id nothing has
had. -/
def planning (remembers : Bool) : Machine DependencyPlan PlanStep where
  step p
    | .create workOrderId projectId now =>
      if p.has workOrderId ∨ p.edges.any (fun e => e.1 = workOrderId ∨ e.2 = workOrderId) then none
      else some { p with
        works := p.works ++ [{
          workOrderId := workOrderId, projectId := projectId, status := creationStatus
          createdAt := now.iso, lastUpdatedAt := now.micros }] }
    | .addDependency workOrderId dependsOnId => some (p.addDependency workOrderId dependsOnId).2
    | .removeDependency workOrderId dependsOnId =>
      some (p.removeDependency workOrderId dependsOnId).2
    | .call workOrderId c now => some (p.call remembers workOrderId c now)
    | .cancel workOrderId eventId now =>
      some { p with
        works := (p.works.ensureSkeleton (some workOrderId) none now.micros).handleCancelled
          (some workOrderId) eventId now.iso now.micros }
    | .delete workOrderId eventId now =>
      some { p with
        works := (p.works.ensureSkeleton (some workOrderId) none now.micros).handleDeleted
          (some workOrderId) eventId now.micros }
    | .deleteProject projectId =>
      some { p with works := p.works.filter (·.projectId ≠ some projectId) }

def DependencyPlan.empty : DependencyPlan := ⟨[], []⟩

def Unbegun (remembers : Bool) (r : WorkOrderRow) : Prop :=
  r.status = .created ∨ r.status = .blocked ∧ recalled remembers r = .created

namespace DependencyPlan

/-- Where nothing is under way, something that is not begun waits for nothing. -/
def DeadlockFree (p : DependencyPlan) : Prop :=
  (∃ w ∈ p.works, w.status = .created) →
    (∀ w ∈ p.works, w.status ∈ [WorkOrderStatus.created, .closed, .cancelled, .deleted]) →
      ∃ w ∈ p.works, w.status = .created ∧ ∀ id ∈ w.workOrderId, p.blockingDependencyCount id = 0

instance (p : DependencyPlan) : Decidable p.DeadlockFree := inferInstanceAs (Decidable (_ → _ → _))

variable (remembers : Bool) (p : DependencyPlan)

def Unstarted (workOrderId : String) : Prop :=
  ∃ r ∈ p.works, r.workOrderId = some workOrderId ∧ Unbegun remembers r

def Retired (workOrderId : String) : Prop :=
  ∃ r ∈ p.works, r.workOrderId = some workOrderId ∧ (r.status = .cancelled ∨ r.status = .deleted)

instance (workOrderId : String) : Decidable (p.Retired workOrderId) :=
  inferInstanceAs (Decidable (∃ r ∈ p.works, _))

def Waits (w d : String) : Prop :=
  (w, d) ∈ p.edges ∧ p.Unstarted remembers w ∧ p.Unstarted remembers d

/-- A step after which nothing waits in vain: what is not begun is not made to wait for what is
retired or already waits for it, and nothing that it waits for is retired. -/
def Careful : PlanStep → Prop
  | .addDependency w d =>
    p.Unstarted remembers w → ¬p.Retired d ∧ ¬Relation.ReflTransGen (p.Waits remembers) d w
  | .cancel d _ _ | .delete d _ _ => ∀ w, (w, d) ∈ p.edges → w ≠ d → ¬p.Unstarted remembers w
  | _ => True

/-- What careful steps keep. -/
structure Orderly : Prop where
  unique : Table.Unique WorkOrderRow.key p.works
  apart : ∀ e ∈ p.edges, e.1 ≠ e.2
  acyclic : Acyclic (p.Waits remembers)
  live : ∀ w d, (w, d) ∈ p.edges → p.Unstarted remembers w → ¬p.Retired d

end DependencyPlan

section Step

variable {remembers : Bool} {p : DependencyPlan}

theorem unbegun_of_write {workOrderId : String} {c : Call} {f : Flight}
    {r : WorkOrderRow} {now : Now} (checked : c.check workOrderId r.status = .proceeds f)
    (after : Unbegun remembers ((f.update remembers r).write remembers now r)) :
    Unbegun remembers r := by
  unfold Unbegun at after
  rw [Update.write_status] at after
  cases c with
  | start brief later =>
    obtain ⟨u, allowed, rfl⟩ := Checked.map_eq_proceeds.mp checked
    obtain ⟨rfl, -⟩ := checkStart_proceeds allowed
    rcases after with after | ⟨after, -⟩ <;> cases after
  | advance toStatus review note =>
    obtain ⟨u, allowed, rfl⟩ := Checked.map_eq_proceeds.mp checked
    obtain ⟨event, known, rfl, -⟩ := checkAdvance_proceeds allowed
    have moved : event.statusFor ≠ .created ∧ event.statusFor ≠ .blocked := by
      revert known
      cases event <;> decide
    rcases after with after | ⟨after, -⟩
    · exact absurd after moved.1
    · exact absurd after moved.2
  | block reason =>
    obtain ⟨u, allowed, rfl⟩ := Checked.map_eq_proceeds.mp checked
    obtain ⟨rfl, open_⟩ := checkBlock_proceeds allowed
    rcases after with after | ⟨-, after⟩
    · cases after
    · cases remembers with
      | false => cases after
      | true =>
        have back : openStatus r.status = some r.status := if_pos open_
        refine Or.inl ?_
        simpa [recalled, Update.write, Flight.update, back] using after
  | unblock =>
    obtain ⟨u, allowed, rfl⟩ := Checked.map_eq_proceeds.mp checked
    have blocked := checkUnblock_proceeds allowed
    rcases after with after | ⟨after, -⟩
    · exact Or.inr ⟨blocked, after⟩
    · have open_ := recalled_blockable remembers r
      rw [show recalled remembers r = .blocked from after] at open_
      exact absurd open_ (by decide)
  | reopen reason =>
    obtain ⟨u, allowed, rfl⟩ := Checked.map_eq_proceeds.mp checked
    obtain ⟨rfl, -⟩ := checkReopen_proceeds allowed
    rcases after with after | ⟨after, -⟩ <;> cases after
  | close held laneReview forced =>
    obtain ⟨u, allowed, rfl⟩ := Checked.map_eq_proceeds.mp checked
    obtain ⟨rfl, -⟩ := checkClose_proceeds allowed
    rcases after with after | ⟨after, -⟩ <;> cases after

theorem target_not_retired {u : Update} (sound : u.Sound) :
    u.target ≠ .cancelled ∧ u.target ≠ .deleted := by
  cases u with
  | start => exact ⟨nofun, nofun⟩
  | advance event read note =>
    have known : event ∈ advanceEvents := sound
    have moved : event.statusFor ≠ .cancelled ∧ event.statusFor ≠ .deleted := by
      revert known
      cases event <;> decide
    exact moved
  | block read reason => exact ⟨nofun, nofun⟩
  | unblock backTo =>
    have open_ : backTo ∈ WorkOrderStatus.blockable := sound
    revert open_
    cases backTo <;> decide
  | reopen reason => exact ⟨nofun, nofun⟩
  | close laneReview forced => exact ⟨nofun, nofun⟩

theorem mem_call {workOrderId : String} {c : Call} {now : Now}
    (unique : Table.Unique WorkOrderRow.key p.works) {r : WorkOrderRow}
    (member : r ∈ (p.call remembers workOrderId c now).works) :
    r ∈ p.works ∨ ∃ q ∈ p.works, ∃ f, c.check workOrderId q.status = .proceeds f ∧
      r = (f.update remembers q).write remembers now q := by
  unfold DependencyPlan.call at member
  split at member
  · exact Or.inl member
  next q found =>
    obtain ⟨held, own⟩ := Table.lookup_key found
    split at member
    next f checked =>
      obtain ⟨q', held', rfl⟩ := Table.mem_update.mp member
      split
      next here =>
        have same : q'.workOrderId = some workOrderId := (of_decide_eq_true here).1
        obtain rfl : q' = q := Table.eq_of_key_eq unique held' held (same.trans own.symm)
          (by simp [WorkOrderRow.key, same])
        exact Or.inr ⟨q', held, f, checked, rfl⟩
      next => exact Or.inl held'
    next => exact Or.inl member

theorem call_unique {workOrderId : String} {c : Call} {now : Now}
    (unique : Table.Unique WorkOrderRow.key p.works) :
    Table.Unique WorkOrderRow.key (p.call remembers workOrderId c now).works := by
  unfold DependencyPlan.call
  split
  · exact unique
  · split
    · exact Table.update_unique unique fun r _ => Update.write_workOrderId _ _ _ r
    · exact unique

theorem call_edges {workOrderId : String} {c : Call} {now : Now} :
    (p.call remembers workOrderId c now).edges = p.edges := by
  unfold DependencyPlan.call
  split
  · rfl
  · split <;> rfl

namespace DependencyPlan

theorem unstarted_call {workOrderId id : String} {c : Call} {now : Now}
    (unique : Table.Unique WorkOrderRow.key p.works)
    (after : (p.call remembers workOrderId c now).Unstarted remembers id) :
    p.Unstarted remembers id := by
  obtain ⟨r, member, own, unbegun⟩ := after
  rcases mem_call unique member with before | ⟨q, held, f, checked, rfl⟩
  · exact ⟨r, before, own, unbegun⟩
  · exact ⟨q, held, (Update.write_workOrderId ..).symm.trans own, unbegun_of_write checked unbegun⟩

theorem retired_call {workOrderId id : String} {c : Call} {now : Now}
    (unique : Table.Unique WorkOrderRow.key p.works)
    (after : (p.call remembers workOrderId c now).Retired id) : p.Retired id := by
  obtain ⟨r, member, own, retired⟩ := after
  rcases mem_call unique member with before | ⟨q, held, f, checked, rfl⟩
  · exact ⟨r, before, own, retired⟩
  · rw [Update.write_status] at retired
    obtain ⟨kept, kept'⟩ := target_not_retired (update_sound checked)
    rcases retired with retired | retired
    · exact absurd retired kept
    · exact absurd retired kept'

theorem Orderly.of_subset (orderly : p.Orderly remembers) {q : DependencyPlan}
    (unique : Table.Unique WorkOrderRow.key q.works) (edges : q.edges ⊆ p.edges)
    (unstarted : ∀ id, q.Unstarted remembers id → p.Unstarted remembers id)
    (live : ∀ w d, (w, d) ∈ q.edges → q.Unstarted remembers w → ¬q.Retired d) :
    q.Orderly remembers where
  unique := unique
  apart e member := orderly.apart e (edges member)
  acyclic := orderly.acyclic.mono fun w d ⟨edge, from_, to_⟩ =>
    ⟨edges edge, unstarted w from_, unstarted d to_⟩
  live := live

theorem Orderly.call (orderly : p.Orderly remembers) (workOrderId : String) (c : Call) (now : Now) :
    (p.call remembers workOrderId c now).Orderly remembers := by
  refine orderly.of_subset (call_unique orderly.unique) ?_
    (fun _ => unstarted_call orderly.unique) ?_
  · rw [call_edges]
    exact List.Subset.refl _
  · intro w d edge unstarted retired
    rw [call_edges] at edge
    exact orderly.live w d edge (unstarted_call orderly.unique unstarted)
      (retired_call orderly.unique retired)

/-- What a cancelled or deleted event leaves: its work order retired, the others as they were. -/
def Retires (workOrderId : String) (t t' : WorkOrderTable) : Prop :=
  Table.Unique WorkOrderRow.key t' ∧ ∀ r ∈ t', r ∈ t ∧ r.workOrderId ≠ some workOrderId ∨
    r.workOrderId = some workOrderId ∧ (r.status = .cancelled ∨ r.status = .deleted)

theorem retires_of_upsert {t : WorkOrderTable} {workOrderId : String} {now : Nat}
    {set : WorkOrderRow → WorkOrderRow} (unique : Table.Unique WorkOrderRow.key t)
    (keeps : ∀ r, (set r).workOrderId = r.workOrderId)
    (retires : ∀ r, (set r).status = .cancelled ∨ (set r).status = .deleted) :
    Retires workOrderId t ((t.ensureSkeleton (some workOrderId) none now).safeUpsert
      (some workOrderId) set) := by
  refine ⟨Table.upsert_unique (Table.insertOrIgnore_unique unique _) keeps _, fun r member => ?_⟩
  rcases Table.mem_upsert_cases member with ⟨held, other⟩ | rfl | ⟨q, -, same, rfl⟩
  · have apart : r.workOrderId ≠ some workOrderId :=
      fun own => other ⟨own, by simp [WorkOrderRow.key, own]⟩
    rcases Table.mem_insertOrIgnore.mp held with old | ⟨rfl, -⟩
    · exact Or.inl ⟨old, apart⟩
    · exact absurd rfl apart
  · exact Or.inr ⟨keeps _, retires _⟩
  · exact Or.inr ⟨(keeps q).trans same.1, retires q⟩

theorem Orderly.retire (orderly : p.Orderly remembers) {workOrderId : String} {t : WorkOrderTable}
    (retires : Retires workOrderId p.works t)
    (alone : ∀ w, (w, workOrderId) ∈ p.edges → w ≠ workOrderId → ¬p.Unstarted remembers w) :
    Orderly remembers { p with works := t } := by
  have before : ∀ id, Unstarted remembers { p with works := t } id → p.Unstarted remembers id := by
    rintro id ⟨r, member, own, unbegun⟩
    rcases retires.2 r member with ⟨old, -⟩ | ⟨-, retired⟩
    · exact ⟨r, old, own, unbegun⟩
    · rcases unbegun with unbegun | ⟨unbegun, -⟩ <;> rcases retired with retired | retired <;>
        cases unbegun.symm.trans retired
  refine orderly.of_subset retires.1 (List.Subset.refl _) before ?_
  rintro w d edge unstarted ⟨r, member, own, retired⟩
  rcases retires.2 r member with ⟨old, -⟩ | ⟨here, -⟩
  · exact orderly.live w d edge (before w unstarted) ⟨r, old, own, retired⟩
  · obtain rfl := Option.some.inj (own.symm.trans here)
    exact alone w edge (orderly.apart _ edge) (before w unstarted)

theorem Orderly.create (orderly : p.Orderly remembers) {row : WorkOrderRow} {workOrderId : String}
    (own : row.workOrderId = some workOrderId) (created : row.status = .created)
    (fresh : p.has workOrderId = false)
    (unnamed : ∀ e ∈ p.edges, e.1 ≠ workOrderId ∧ e.2 ≠ workOrderId) :
    Orderly remembers { p with works := p.works ++ [row] } := by
  have before : ∀ id, id ≠ workOrderId →
      Unstarted remembers { p with works := p.works ++ [row] } id →
      p.Unstarted remembers id := by
    rintro id apart ⟨r, member, own', unbegun⟩
    rcases List.mem_append.mp member with old | new
    · exact ⟨r, old, own', unbegun⟩
    · obtain rfl := List.mem_singleton.mp new
      exact absurd (Option.some.inj (own'.symm.trans own)) apart
  refine ⟨?_, orderly.apart, ?_, ?_⟩
  · refine (Table.append_unique_iff orderly.unique _).mpr fun r member same => ?_
    have there : p.has workOrderId = true :=
      List.any_eq_true.mpr ⟨r, member, decide_eq_true (same.1.trans own)⟩
    rw [fresh] at there
    cases there
  · refine orderly.acyclic.mono fun w d ⟨edge, from_, to_⟩ => ⟨edge, ?_, ?_⟩
    · exact before w (unnamed _ edge).1 from_
    · exact before d (unnamed _ edge).2 to_
  · rintro w d edge unstarted ⟨r, member, own', retired⟩
    rcases List.mem_append.mp member with old | new
    · exact orderly.live w d edge (before w (unnamed _ edge).1 unstarted) ⟨r, old, own', retired⟩
    · obtain rfl := List.mem_singleton.mp new
      rw [created] at retired
      rcases retired with retired | retired <;> cases retired

theorem Orderly.add (orderly : p.Orderly remembers) {w d : String}
    (careful : p.Unstarted remembers w →
      ¬p.Retired d ∧ ¬Relation.ReflTransGen (p.Waits remembers) d w) :
    Orderly remembers (p.addDependency w d).2 := by
  unfold addDependency
  split
  · exact orderly
  next apart =>
    split
    · exact orderly
    · split
      · exact orderly
      · split
        · exact orderly
        · refine ⟨orderly.unique, ?_, ?_, ?_⟩
          · refine List.forall_mem_append.mpr ⟨orderly.apart, fun e new => ?_⟩
            obtain rfl := List.mem_singleton.mp new
            exact apart
          · by_cases unstarted : p.Unstarted remembers w
            · refine (orderly.acyclic.add (careful unstarted).2).mono fun x y
                ⟨edge, from_, to_⟩ => ?_
              rcases List.mem_append.mp edge with old | new
              · exact Or.inl ⟨old, from_, to_⟩
              · exact Or.inr (Prod.mk.inj (List.mem_singleton.mp new))
            · refine orderly.acyclic.mono fun x y ⟨edge, from_, to_⟩ => ?_
              rcases List.mem_append.mp edge with old | new
              · exact ⟨old, from_, to_⟩
              · obtain ⟨rfl, rfl⟩ := Prod.mk.inj (List.mem_singleton.mp new)
                exact absurd from_ unstarted
          · intro x y edge unstarted
            rcases List.mem_append.mp edge with old | new
            · exact orderly.live x y old unstarted
            · obtain ⟨rfl, rfl⟩ := Prod.mk.inj (List.mem_singleton.mp new)
              exact (careful unstarted).1

theorem careful_add {w d : String} (apart : d ≠ w) (free : ∀ e ∈ p.edges, e.1 ≠ d)
    (live : ¬p.Retired d) :
    p.Careful remembers (.addDependency w d) := by
  refine fun _ => ⟨live, fun path => ?_⟩
  rcases Relation.ReflTransGen.cases_head path with same | ⟨e, ⟨edge, -⟩, -⟩
  · exact apart same
  · exact free _ edge rfl

theorem Orderly.remove (orderly : p.Orderly remembers) (w d : String) :
    Orderly remembers (p.removeDependency w d).2 := by
  unfold removeDependency
  split
  · exact orderly
  · split
    · refine orderly.of_subset orderly.unique (List.filter_subset_self _) (fun _ => id)
        fun x y edge => ?_
      exact orderly.live x y (List.mem_of_mem_filter edge)
    · exact orderly

theorem Orderly.deleteProject (orderly : p.Orderly remembers) (keep : WorkOrderRow → Bool) :
    Orderly remembers { p with works := p.works.filter keep } := by
  have before : ∀ id, Unstarted remembers { p with works := p.works.filter keep } id →
      p.Unstarted remembers id :=
        fun id ⟨r, member, rest⟩ => ⟨r, List.mem_of_mem_filter member, rest⟩
  refine orderly.of_subset (Table.filter_unique orderly.unique keep) (List.Subset.refl _) before ?_
  rintro w d edge unstarted ⟨r, member, rest⟩
  exact orderly.live w d edge (before w unstarted) ⟨r, List.mem_of_mem_filter member, rest⟩

theorem Orderly.step {l : PlanStep} {q : DependencyPlan} (orderly : p.Orderly remembers)
    (careful : p.Careful remembers l) (step : (planning remembers).step p l = some q) :
    q.Orderly remembers := by
  cases l with
  | create workOrderId projectId now =>
    simp only [planning] at step
    split at step
    · cases step
    next fresh =>
      obtain rfl := Option.some.inj step
      obtain ⟨absent, unnamed⟩ := not_or.mp fresh
      refine orderly.create rfl rfl (by simpa using absent) fun e member => ?_
      simpa using fun named => unnamed (List.any_eq_true.mpr ⟨e, member, decide_eq_true named⟩)
  | addDependency w d =>
    obtain rfl := Option.some.inj step
    exact orderly.add careful
  | removeDependency w d =>
    obtain rfl := Option.some.inj step
    exact orderly.remove w d
  | call workOrderId c now =>
    obtain rfl := Option.some.inj step
    exact orderly.call workOrderId c now
  | cancel workOrderId eventId now =>
    obtain rfl := Option.some.inj step
    refine orderly.retire ?_ careful
    unfold WorkOrderTable.handleCancelled WorkOrderTable.handleEnded
    exact retires_of_upsert orderly.unique (fun _ => rfl) fun _ => Or.inl rfl
  | delete workOrderId eventId now =>
    obtain rfl := Option.some.inj step
    exact orderly.retire (retires_of_upsert orderly.unique (fun _ => rfl) fun _ => Or.inr rfl)
      careful
  | deleteProject projectId =>
    obtain rfl := Option.some.inj step
    exact orderly.deleteProject _

theorem blockingDependencyCount_eq_zero {workOrderId : String} :
    p.blockingDependencyCount workOrderId = 0 ↔
      ∀ d, (workOrderId, d) ∈ p.edges → ∀ r ∈ p.works, r.workOrderId = some d →
        r.status = .closed := by
  simp only [blockingDependencyCount, List.length_eq_zero_iff, List.flatMap_eq_nil_iff,
    List.mem_filter,
    decide_eq_true_eq, List.filter_eq_nil_iff, Prod.forall, not_and, not_not]
  constructor
  · intro all d edge r member own
    exact all workOrderId d ⟨edge, rfl⟩ r member own
  · rintro all w d ⟨edge, rfl⟩ r member own
    exact all d edge r member own

theorem Orderly.deadlockFree (orderly : p.Orderly remembers) : p.DeadlockFree := by
  rintro ⟨w, member, created⟩ settled
  let ids := (p.works.filter (·.status = .created)).filterMap (·.workOrderId)
  have mem_ids : ∀ id, id ∈ ids ↔ ∃ r ∈ p.works, r.status = .created ∧ r.workOrderId = some id := by
    intro id
    simp [ids, List.mem_filterMap, List.mem_filter, and_assoc]
  by_cases none : ids = []
  · refine ⟨w, member, created, fun id own => ?_⟩
    have listed : id ∈ ids := (mem_ids id).mpr ⟨w, member, created, own⟩
    rw [none] at listed
    cases listed
  · obtain ⟨id, listed, last⟩ := orderly.acyclic.exists_terminal none
    obtain ⟨r, held, unbegun, own⟩ := (mem_ids id).mp listed
    have unstarted : p.Unstarted remembers id := ⟨r, held, own, Or.inl unbegun⟩
    refine ⟨r, held, unbegun, fun id' own' => ?_⟩
    obtain rfl := Option.some.inj (own.symm.trans own')
    refine blockingDependencyCount_eq_zero.mpr fun d edge q there waited => ?_
    have status := settled q there
    simp only [List.mem_cons, List.not_mem_nil, or_false] at status
    rcases status with status | status | status | status
    · have waits : p.Waits remembers id d := ⟨edge, unstarted, q, there, waited, Or.inl status⟩
      exact absurd waits (last d ((mem_ids d).mpr ⟨q, there, status, waited⟩))
    · exact status
    · exact absurd ⟨q, there, waited, Or.inl status⟩ (orderly.live id d edge unstarted)
    · exact absurd ⟨q, there, waited, Or.inr status⟩ (orderly.live id d edge unstarted)

theorem empty_orderly : empty.Orderly remembers where
  unique := List.Pairwise.nil
  apart := nofun
  acyclic x loop := by
    obtain ⟨y, ⟨edge, -⟩, -⟩ := Relation.TransGen.head'_iff.mp loop
    cases edge
  live := nofun

end DependencyPlan

end Step

open DependencyPlan

/-- A run of careful steps never comes to a deadlock. -/
theorem deadlockFree_of_careful (remembers : Bool) (ls : List PlanStep)
    (careful : ∀ x ∈ (planning remembers).transitions .empty ls, x.before.Careful
      remembers x.label) :
    ∀ x ∈ (planning remembers).transitions .empty ls, x.after.DeadlockFree := fun x member =>
  ((planning remembers).invariant_of_guarded (J := Orderly remembers)
    (G := fun p l _ => p.Careful remembers l)
      (fun _ _ _ orderly careful step => orderly.step careful step)
    empty_orderly careful x member).2.deadlockFree

section Runs

def noon : Now := ⟨"2026-09-24T12:00:00+00:00", 1⟩

def chainRun : List PlanStep :=
  [.create "lexer" (some "p") noon, .create "parser" (some "p") noon,
    .addDependency "parser" "lexer",
    .call "lexer" (.start none none) noon]

theorem chainRun_deadlockFree :
    ((planning true).transitions .empty chainRun).length = chainRun.length ∧
      ∀ x ∈ (planning true).transitions .empty chainRun, x.after.DeadlockFree := by
  refine ⟨by decide, deadlockFree_of_careful true chainRun fun x member => ?_⟩
  rw [chainRun, Machine.transitions_cons_of_step _ rfl, Machine.transitions_cons_of_step _ rfl,
    Machine.transitions_cons_of_step _ rfl, Machine.transitions_cons_of_step _ rfl] at member
  simp only [Machine.transitions_nil, List.mem_cons, List.not_mem_nil, or_false] at member
  rcases member with rfl | rfl | rfl | rfl
  · trivial
  · trivial
  · exact careful_add (by decide) (by decide) (by decide)
  · trivial

def circleRun : List PlanStep :=
  [.create "lexer" (some "p") noon, .create "parser" (some "p") noon,
    .addDependency "parser" "lexer",
    .addDependency "lexer" "parser"]

theorem circleRun_deadlocks :
    ¬∀ x ∈ (planning true).transitions .empty circleRun, x.after.DeadlockFree := by decide

end Runs

end DreamStudio.WorkOrders
