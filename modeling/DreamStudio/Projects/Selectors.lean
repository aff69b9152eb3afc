import DreamStudio.Library.Least
import DreamStudio.WorkOrders.Dependencies
import Mathlib.Data.Prod.Lex
import Mathlib.Data.String.Basic
import Mathlib.Order.WithBot
import Mathlib.Data.Int.ConditionallyCompleteOrder

namespace DreamStudio.Projects

open Library Projections WorkOrders

/-- The columns of `business_milestones` that order its work orders. -/
structure MilestoneOrder where
  milestoneId : String
  orderIndex : Option Int

/-- The tables the selectors read. A work order has an id, and its own. -/
structure Backlog extends DependencyPlan where
  milestones : List MilestoneOrder
  unique : Table.Unique WorkOrderRow.key works
  named : ∀ r ∈ works, r.workOrderId.isSome = true

structure Scan where
  order : List WorkOrderRow → List WorkOrderRow
  perm : ∀ rows, (order rows).Perm rows

section Queries

variable (b : Backlog) (projectId : String)

/-- `LEFT JOIN business_milestones`. -/
def milestoneOf (r : WorkOrderRow) : Option MilestoneOrder :=
  r.milestoneId.bind fun id => b.milestones.find? (·.milestoneId = id)

/-- No row of `work_order_dependencies` leads to a work order that is not closed. -/
def unblocked (r : WorkOrderRow) : Bool :=
  r.workOrderId.all fun id => b.blockingDependencyCount id = 0

def nullsLast {α : Type} (x : Option α) : WithTop α := x

def nullsFirst {α : Type} (x : Option α) : WithBot α := x

/-- `sequence_order ASC NULLS LAST, created_at ASC`. -/
def sequenceKey (r : WorkOrderRow) : WithTop Int ×ₗ WithBot String :=
  toLex (nullsLast r.sequenceOrder, nullsFirst r.createdAt)

/-- `m.order_index IS NULL, m.order_index ASC, …`. -/
def nextKey (r : WorkOrderRow) : WithTop Int ×ₗ WithTop Int ×ₗ WithBot String :=
  toLex (nullsLast ((milestoneOf b r).bind (·.orderIndex)), sequenceKey r)

/-- `wo.status DESC, m.order_index ASC NULLS LAST, …`, where a status is created or in progress. -/
def readyKey (r : WorkOrderRow) : Bool ×ₗ WithTop Int ×ₗ WithTop Int ×ₗ WithBot String :=
  toLex (decide (r.status ≠ .inProgress), nextKey b r)

/-- `m.order_index ASC, …`, where a NULL comes first. -/
def stateKey (r : WorkOrderRow) : WithBot Int ×ₗ WithTop Int ×ₗ WithBot String :=
  toLex (nullsFirst ((milestoneOf b r).bind (·.orderIndex)), sequenceKey r)

/-- The first query of `get_next_work_order`. -/
def underway : List WorkOrderRow :=
  b.works.filter fun r => r.projectId = some projectId ∧ r.status = .inProgress

def startable : List WorkOrderRow :=
  b.works.filter fun r => r.projectId = some projectId ∧ r.status = .created ∧ unblocked b r

def getNextWorkOrder (first second : Scan) : Option WorkOrderRow :=
  (firstLeast (nextKey b) (first.order (underway b projectId))).or
    (firstLeast (nextKey b) (second.order (startable b projectId)))

/-- The WHERE of `ready_work_orders`, which `get_project_state` has too. -/
def ready : List WorkOrderRow :=
  b.works.filter fun r =>
    r.projectId = some projectId ∧ (r.status = .created ∨ r.status = .inProgress) ∧
      (r.status = .inProgress ∨ unblocked b r)

def readyWorkOrders (scan : Scan) : List WorkOrderRow :=
  (scan.order (ready b projectId)).insertionSort fun r s => readyKey b r ≤ readyKey b s

/-- The work order of `get_project_state`, by an INNER JOIN. -/
def projectStateNext (scan : Scan) : Option WorkOrderRow :=
  firstLeast (stateKey b)
    (scan.order ((ready b projectId).filter fun r => (milestoneOf b r).isSome))

/-- The two selectors name the same work order, one of the ready ones, and none if there is none. -/
def SelectorsAgree : Prop :=
  ∀ first second listing third : Scan,
    let next := getNextWorkOrder b projectId first second
    let readySet := readyWorkOrders b projectId listing
    let state := projectStateNext b projectId third
    (∀ r ∈ next, r ∈ readySet) ∧ (∀ r ∈ state, r ∈ readySet) ∧
      state.map (·.workOrderId) = next.map (·.workOrderId) ∧
      (next = none ↔ readySet = []) ∧ (state = none ↔ readySet = [])

/-- Nothing is ready, or one ready work order has a milestone and comes before all others, by each
of the two orders. -/
def OneFirst : Prop :=
  ready b projectId = [] ∨
    ∃ h ∈ ready b projectId, (milestoneOf b h).isSome = true ∧
      ∀ r ∈ ready b projectId, r ≠ h →
        readyKey b h < readyKey b r ∧
          ((milestoneOf b r).isSome = true → stateKey b h < stateKey b r)

end Queries

section Scans

variable {κ : Type} [LinearOrder κ] {key : WorkOrderRow → κ} {rows : List WorkOrderRow}
  {r : WorkOrderRow}

theorem scanned_least {scan : Scan} (found : firstLeast key (scan.order rows) = some r) :
    r ∈ rows ∧ ∀ s ∈ rows, key r ≤ key s := by
  have least := firstLeast_spec found
  refine ⟨(scan.perm rows).mem_iff.mp least.mem, fun s member => ?_⟩
  obtain ⟨before, later, split, strict, weak⟩ := least
  have member := (scan.perm rows).mem_iff.mpr member
  rw [split] at member
  rcases List.mem_append.mp member with member | member
  · exact (strict s member).le
  · rcases List.mem_cons.mp member with rfl | member
    · exact le_refl _
    · exact weak s member

open Classical in
theorem exists_scan (member : r ∈ rows) (least : ∀ s ∈ rows, key r ≤ key s) :
    ∃ scan : Scan, firstLeast key (scan.order rows) = some r := by
  obtain ⟨before, later, rfl⟩ := List.append_of_mem member
  refine ⟨⟨fun xs => if xs = before ++ r :: later then r :: (before ++ later) else xs,
    fun xs => ?_⟩, ?_⟩
  · split
    next same => exact same ▸ List.perm_middle.symm
    next => exact List.Perm.refl xs
  · change firstLeast key (if before ++ r :: later = before ++ r :: later then _ else _) = some r
    rw [if_pos rfl]
    have first : FirstLeast key (r :: (before ++ later)) r := by
      refine ⟨[], before ++ later, rfl, fun s none => absurd none List.not_mem_nil,
        fun s other => ?_⟩
      apply least
      rcases List.mem_append.mp other with other | other
      · exact List.mem_append_left _ other
      · exact List.mem_append_right _ (List.mem_cons_of_mem r other)
    exact firstLeast_eq_some_iff.mpr first

theorem scan_eq_none {scan : Scan} : firstLeast key (scan.order rows) = none ↔ rows = [] := by
  rw [firstLeast_eq_none]
  constructor
  · intro empty
    exact List.perm_nil.mp (empty ▸ (scan.perm rows).symm)
  · rintro rfl
    exact List.perm_nil.mp (scan.perm [])

end Scans

section Picks

variable {b : Backlog} {projectId : String} {r s : WorkOrderRow}

theorem mem_underway :
    r ∈ underway b projectId ↔ r ∈ ready b projectId ∧ r.status = .inProgress := by
  simp only [underway, ready, List.mem_filter, decide_eq_true_eq]
  tauto

theorem mem_startable :
    r ∈ startable b projectId ↔ r ∈ ready b projectId ∧ r.status = .created := by
  simp only [startable, ready, List.mem_filter, decide_eq_true_eq]
  constructor
  · rintro ⟨stored, own, created, free⟩
    exact ⟨⟨stored, own, .inl created, .inr free⟩, created⟩
  · rintro ⟨⟨stored, own, -, free⟩, created⟩
    refine ⟨stored, own, created, free.resolve_left ?_⟩
    rw [created]
    exact nofun

theorem status_of_ready (member : r ∈ ready b projectId) :
    r.status = .created ∨ r.status = .inProgress := by
  simp only [ready, List.mem_filter, decide_eq_true_eq] at member
  exact member.2.2.1

theorem readyKey_le_iff :
    readyKey b r ≤ readyKey b s ↔
      (r.status = .inProgress ∧ s.status ≠ .inProgress) ∨
        ((r.status = .inProgress ↔ s.status = .inProgress) ∧ nextKey b r ≤ nextKey b s) := by
  by_cases hr : r.status = .inProgress <;> by_cases hs : s.status = .inProgress <;>
    simp [readyKey, Prod.Lex.toLex_le_toLex, hr, hs]

theorem next_least {first second : Scan}
    (picked : getNextWorkOrder b projectId first second = some r) :
    r ∈ ready b projectId ∧ ∀ s ∈ ready b projectId, readyKey b r ≤ readyKey b s := by
  rcases Option.or_eq_some_iff.mp picked with found | ⟨nothing, found⟩
  · obtain ⟨member, least⟩ := scanned_least found
    obtain ⟨member, running⟩ := mem_underway.mp member
    refine ⟨member, fun s there => readyKey_le_iff.mpr ?_⟩
    by_cases other : s.status = .inProgress
    · exact .inr ⟨iff_of_true running other, least s (mem_underway.mpr ⟨there, other⟩)⟩
    · exact .inl ⟨running, other⟩
  · obtain ⟨member, least⟩ := scanned_least found
    obtain ⟨member, created⟩ := mem_startable.mp member
    have idle : ∀ s ∈ ready b projectId, s.status ≠ .inProgress := by
      intro s there running
      have := mem_underway.mpr ⟨there, running⟩
      rw [scan_eq_none.mp nothing] at this
      exact List.not_mem_nil this
    refine ⟨member, fun s there => readyKey_le_iff.mpr (.inr ⟨?_, ?_⟩)⟩
    · exact iff_of_false (idle r member) (idle s there)
    · have created := (status_of_ready there).resolve_right (idle s there)
      exact least s (mem_startable.mpr ⟨there, created⟩)

theorem exists_next (member : r ∈ ready b projectId)
    (least : ∀ s ∈ ready b projectId, readyKey b r ≤ readyKey b s) :
    ∃ first second, getNextWorkOrder b projectId first second = some r := by
  by_cases running : r.status = .inProgress
  · have before : ∀ s ∈ underway b projectId, nextKey b r ≤ nextKey b s := by
      intro s there
      obtain ⟨there, other⟩ := mem_underway.mp there
      rcases readyKey_le_iff.mp (least s there) with ⟨-, idle⟩ | ⟨-, before⟩
      · exact absurd other idle
      · exact before
    obtain ⟨scan, found⟩ := exists_scan (mem_underway.mpr ⟨member, running⟩) before
    exact ⟨scan, scan, Option.or_eq_some_iff.mpr (.inl found)⟩
  · have idle : underway b projectId = [] := by
      refine List.eq_nil_iff_forall_not_mem.mpr fun s there => ?_
      obtain ⟨there, other⟩ := mem_underway.mp there
      rcases readyKey_le_iff.mp (least s there) with ⟨now, -⟩ | ⟨same, -⟩
      · exact running now
      · exact running (same.mpr other)
    have created := (status_of_ready member).resolve_right running
    have before : ∀ s ∈ startable b projectId, nextKey b r ≤ nextKey b s := by
      intro s there
      obtain ⟨there, other⟩ := mem_startable.mp there
      rcases readyKey_le_iff.mp (least s there) with ⟨now, -⟩ | ⟨-, before⟩
      · exact absurd now running
      · exact before
    obtain ⟨scan, found⟩ := exists_scan (mem_startable.mpr ⟨member, created⟩) before
    exact ⟨scan, scan, Option.or_eq_some_iff.mpr (.inr ⟨scan_eq_none.mpr idle, found⟩)⟩

theorem next_eq_none {first second : Scan} :
    getNextWorkOrder b projectId first second = none ↔ ready b projectId = [] := by
  rw [getNextWorkOrder, Option.or_eq_none_iff, scan_eq_none, scan_eq_none]
  constructor
  · rintro ⟨noneRunning, noneCreated⟩
    refine List.eq_nil_iff_forall_not_mem.mpr fun s there => ?_
    rcases status_of_ready there with created | running
    · exact List.eq_nil_iff_forall_not_mem.mp noneCreated s (mem_startable.mpr ⟨there, created⟩)
    · exact List.eq_nil_iff_forall_not_mem.mp noneRunning s (mem_underway.mpr ⟨there, running⟩)
  · intro nothing
    constructor <;> refine List.eq_nil_iff_forall_not_mem.mpr fun s there => ?_
    · exact List.eq_nil_iff_forall_not_mem.mp nothing s (mem_underway.mp there).1
    · exact List.eq_nil_iff_forall_not_mem.mp nothing s (mem_startable.mp there).1

theorem mem_readyWorkOrders {scan : Scan} :
    r ∈ readyWorkOrders b projectId scan ↔ r ∈ ready b projectId := by
  rw [readyWorkOrders, (List.perm_insertionSort _ _).mem_iff, (scan.perm _).mem_iff]

theorem readyWorkOrders_eq_nil {scan : Scan} :
    readyWorkOrders b projectId scan = [] ↔ ready b projectId = [] := by
  simp only [List.eq_nil_iff_forall_not_mem, mem_readyWorkOrders]

theorem state_least {scan : Scan} (picked : projectStateNext b projectId scan = some r) :
    r ∈ ready b projectId ∧ (milestoneOf b r).isSome = true ∧
      ∀ s ∈ ready b projectId,
        (milestoneOf b s).isSome = true → stateKey b r ≤ stateKey b s := by
  obtain ⟨member, least⟩ := scanned_least picked
  obtain ⟨member, placed⟩ := List.mem_filter.mp member
  exact ⟨member, placed, fun s there placed => least s (List.mem_filter.mpr ⟨there, placed⟩)⟩

theorem exists_state (member : r ∈ ready b projectId) (placed : (milestoneOf b r).isSome = true)
    (least : ∀ s ∈ ready b projectId,
      (milestoneOf b s).isSome = true → stateKey b r ≤ stateKey b s) :
    ∃ scan, projectStateNext b projectId scan = some r :=
  exists_scan (List.mem_filter.mpr ⟨member, placed⟩) fun s there =>
    least s (List.mem_filter.mp there).1 (List.mem_filter.mp there).2

theorem eq_of_ready (hr : r ∈ ready b projectId) (hs : s ∈ ready b projectId)
    (same : r.workOrderId = s.workOrderId) : r = s :=
  have stored := (List.mem_filter.mp hr).1
  Table.eq_of_key_eq b.unique stored (List.mem_filter.mp hs).1 same
    (Option.ne_none_iff_isSome.mpr (b.named r stored))

end Picks

/-- The selectors agree exactly when nothing is ready or one work order comes first by both
orders. -/
theorem selectorsAgree_iff (b : Backlog) (projectId : String) :
    SelectorsAgree b projectId ↔ OneFirst b projectId := by
  constructor
  · intro agree
    by_cases nothing : ready b projectId = []
    · exact .inl nothing
    · let scan : Scan := ⟨id, List.Perm.refl⟩
      have named (first second third : Scan) := agree first second scan third
      have some_state : ∃ h, projectStateNext b projectId scan = some h := by
        refine Option.ne_none_iff_exists'.mp fun missing => nothing ?_
        exact readyWorkOrders_eq_nil.mp ((named scan scan scan).2.2.2.2.mp missing)
      obtain ⟨h, state⟩ := some_state
      have same {r s : WorkOrderRow} {first second third : Scan}
          (next : getNextWorkOrder b projectId first second = some r)
          (state : projectStateNext b projectId third = some s) : s = r := by
        have ids := (named first second third).2.2.1
        rw [next, state] at ids
        exact eq_of_ready (state_least state).1 (next_least next).1 (Option.some_inj.mp ids)
      have some_next : ∃ g, getNextWorkOrder b projectId scan scan = some g :=
        Option.ne_none_iff_exists'.mp fun missing => nothing (next_eq_none.mp missing)
      obtain ⟨g, next⟩ := some_next
      obtain rfl := same next state
      obtain ⟨member, placed, before⟩ := state_least state
      refine .inr ⟨h, member, placed, fun r there other => ⟨?_, fun located => ?_⟩⟩
      · refine lt_of_not_ge fun le => other ?_
        obtain ⟨first, second, picked⟩ := exists_next there fun s hs =>
          le.trans ((next_least next).2 s hs)
        exact (same picked state).symm
      · refine lt_of_not_ge fun le => other ?_
        obtain ⟨third, picked⟩ := exists_state there located fun s hs located =>
          le.trans (before s hs located)
        exact same next picked
  · rintro (nothing | ⟨h, member, placed, before⟩) first second listing third
    · have noState : projectStateNext b projectId third = none := by
        apply scan_eq_none.mpr
        rw [nothing]
        rfl
      have noNext : getNextWorkOrder b projectId first second = none := next_eq_none.mpr nothing
      simp [noState, noNext, readyWorkOrders_eq_nil.mpr nothing]
    · have ready_ne : ready b projectId ≠ [] := List.ne_nil_of_mem member
      have next : getNextWorkOrder b projectId first second = some h := by
        obtain ⟨r, picked⟩ := Option.ne_none_iff_exists'.mp fun missing =>
          ready_ne (next_eq_none.mp missing)
        rw [picked]
        obtain ⟨there, least⟩ := next_least picked
        by_contra other
        exact absurd (least h member)
          (before r there fun same => other (congrArg some same)).1.not_ge
      have state : projectStateNext b projectId third = some h := by
        have some_state : ∃ s, projectStateNext b projectId third = some s := by
          refine Option.ne_none_iff_exists'.mp fun missing => ?_
          have := scan_eq_none.mp missing
          exact List.eq_nil_iff_forall_not_mem.mp this h (List.mem_filter.mpr ⟨member, placed⟩)
        obtain ⟨s, picked⟩ := some_state
        rw [picked]
        obtain ⟨there, located, least⟩ := state_least picked
        by_contra other
        exact absurd (least h member placed)
          ((before s there fun same => other (congrArg some same)).2 located).not_ge
      have listed : h ∈ readyWorkOrders b projectId listing := mem_readyWorkOrders.mpr member
      have some_ready : readyWorkOrders b projectId listing ≠ [] := List.ne_nil_of_mem listed
      simp [next, state, listed, some_ready]

def loose : Backlog where
  works := [{ workOrderId := some "w1", projectId := some "p1", lastUpdatedAt := 0 }]
  edges := []
  milestones := []
  unique := by simp [Table.Unique]
  named := by simp

/-- The inner join drops a work order without a milestone. -/
theorem loose_dropped : ¬ SelectorsAgree loose "p1" := by
  intro agree
  let scan : Scan := ⟨id, List.Perm.refl⟩
  have state : projectStateNext loose "p1" scan = none := scan_eq_none.mpr (by decide +kernel)
  have nothing := readyWorkOrders_eq_nil.mp ((agree scan scan scan scan).2.2.2.2.mp state)
  exact absurd nothing (by decide +kernel)

end DreamStudio.Projects
