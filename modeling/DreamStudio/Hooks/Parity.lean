import DreamStudio.Hooks.Native
import DreamStudio.WorkOrders.Criteria

namespace DreamStudio.Hooks

open Library WorkOrders

variable (env : HookEnv) (t : HookAuthority) (path : ResolvedPath) (projectId : String)
  (edited : Option (ResolvedPath × ResolvedPath))

/-! The project. -/

def HookAuthority.above : List HookProject :=
  candidates env (Enforcement.root env) path t.registeredRows

/-- The native hook's. -/
def HookAuthority.nativelyAbove : List HookProject :=
  candidates env (Native.root env) path (Native.projectRows t)

/-- No candidate meets its equal before it, and the one whose path has the most characters is the
native hook's one whose path has the most bytes. -/
def HookAuthority.Ranks : Prop :=
  env.exempt path ∨
    ¬Ties (Enforcement.pathKey env) (t.above env path) ∧
      ∀ r, FirstLeast (Enforcement.pathKey env) (t.above env path) r →
        FirstLeast (Native.pathKey env) (t.nativelyAbove env path) r

variable {env t path}

theorem mem_above {r : HookProject} : r ∈ t.above env path ↔
    r ∈ t.registeredRows ∧ (Enforcement.root env r).any (isUnder env.py.lower path ·) := by
  simp only [HookAuthority.above, candidates, List.mem_filter]

theorem root_of_native {r : HookProject} {root : ResolvedPath}
    (resolved : Native.root env r = some root) :
    Enforcement.root env r = some root := by
  obtain ⟨stored, isPath, resolves⟩ := Option.bind_eq_some_iff.mp resolved
  split at resolves
  · cases resolves
  · exact Option.bind_eq_some_iff.mpr ⟨stored, isPath, resolves⟩

theorem mem_nativelyAbove {r : HookProject} (mem : r ∈ t.nativelyAbove env path) :
    r ∈ t.above env path ∧ r.projectId.isSome := by
  simp only [HookAuthority.nativelyAbove, candidates, Native.projectRows, List.mem_filter] at mem
  obtain ⟨⟨registered, hasId⟩, isAbove⟩ := mem
  obtain ⟨root, resolved, under⟩ := (Option.any_eq_true _ _).mp isAbove
  refine ⟨mem_above.mpr ⟨registered, ?_⟩, hasId⟩
  exact (Option.any_eq_true _ _).mpr ⟨root, root_of_native resolved, under⟩

theorem eq_of_registered {r s : HookProject} (hr : r ∈ t.above env path)
    (hs : s ∈ t.nativelyAbove env path) (same : r.registered = s.registered) : r = s := by
  obtain ⟨hs, hasId⟩ := mem_nativelyAbove hs
  have sameId : r.projectId = s.projectId := congrArg RegisteredProject.projectId same
  refine Table.eq_of_key_eq t.projects_unique ?_ ?_ sameId ?_
  · exact (List.mem_filter.mp (mem_above.mp hr).1).1
  · exact (List.mem_filter.mp (mem_above.mp hs).1).1
  · intro none
    rw [← sameId, show r.projectId = _ from none] at hasId
    cases hasId

theorem registered_eq_iff :
    (firstLeast (Enforcement.pathKey env) (t.above env path)).map (·.registered) =
        (firstLeast (Native.pathKey env) (t.nativelyAbove env path)).map (·.registered) ↔
      ∀ r, FirstLeast (Enforcement.pathKey env) (t.above env path) r →
        FirstLeast (Native.pathKey env) (t.nativelyAbove env path) r := by
  simp only [← firstLeast_eq_some_iff]
  cases best : firstLeast (Enforcement.pathKey env) (t.above env path) with
  | none =>
    have empty : t.nativelyAbove env path = [] := by
      refine List.eq_nil_iff_forall_not_mem.mpr fun r hr => ?_
      have mem := (mem_nativelyAbove hr).1
      rw [firstLeast_eq_none.mp best] at mem
      cases mem
    simp [empty, firstLeast]
  | some b =>
    have hb := (firstLeast_spec best).mem
    constructor
    · rintro same r ⟨⟩
      obtain ⟨c, found, isC⟩ := Option.map_eq_some_iff.mp same.symm
      rw [found, eq_of_registered hb (firstLeast_spec found).mem isC.symm]
    · intro leads
      rw [leads b rfl]

theorem matchRegisteredProject_eq_iff :
    Enforcement.matchRegisteredProject env t path = .ok (Native.matchRegisteredProject env t path) ↔
      t.Ranks env path := by
  unfold Enforcement.matchRegisteredProject Native.matchRegisteredProject HookAuthority.Ranks
  by_cases exempt : env.exempt path
  · simp [exempt]
  · rw [if_neg exempt, if_neg exempt, ← HookAuthority.above, ← HookAuthority.nativelyAbove]
    rcases firstLeastOrStuck_eq (Enforcement.pathKey env) (t.above env path) with
      ⟨ties, stuck⟩ | ⟨free, found⟩
    · simp [exempt, stuck, ties]
    · simp only [found, Except.ok.injEq, registered_eq_iff, exempt, free,
        not_false_eq_true, true_and,
        Bool.false_eq_true, false_or]

/-! The work orders. -/

variable {projectId edited}

theorem mem_inProgressRows {r : HookWorkOrder} (mem : r ∈ t.inProgressRows projectId) :
    r ∈ t.workOrders :=
  (List.mem_filter.mp ((List.perm_insertionSort _ _).mem_iff.mp mem)).1

def Enforcement.claims (env : HookEnv) (edited : Option (ResolvedPath × ResolvedPath))
    (r : HookWorkOrder) : Bool :=
  edited.any fun (file, root) => Enforcement.holds env file root r

def Native.claims (env : HookEnv) (edited : Option (ResolvedPath × ResolvedPath))
    (r : HookWorkOrder) : Bool :=
  edited.any fun (file, root) => Native.holds env file root r

theorem Enforcement.matched_eq (rows : List HookWorkOrder) :
    Enforcement.matched env edited rows = rows.filter (Enforcement.claims env edited) := by
  cases edited with
  | none => exact (List.filter_eq_nil_iff.mpr fun _ _ => Bool.false_ne_true).symm
  | some at' => rfl

theorem Native.matched_eq (rows : List HookWorkOrder) :
    Native.matched env edited rows = rows.filter (Native.claims env edited) := by
  cases edited with
  | none => exact (List.filter_eq_nil_iff.mpr fun _ _ => Bool.false_ne_true).symm
  | some at' => rfl

variable (t projectId) in
theorem filter_ids_eq_iff {p q : HookWorkOrder → Bool} (hasId : ∀ r, q r → r.workOrderId.isSome) :
    ((t.inProgressRows projectId).filter p).map (·.workOrderId) =
        ((t.inProgressRows projectId).filter q).map (·.workOrderId) ↔
      ∀ r ∈ t.inProgressRows projectId, p r = q r := by
  constructor
  · intro ids r hr
    have mem_iff (id : Text) := congrArg (id ∈ ·) ids
    simp only [List.mem_map, List.mem_filter, eq_iff_iff] at mem_iff
    rw [Bool.eq_iff_iff]
    constructor
    · intro hp
      obtain ⟨s, ⟨hs, hq⟩, same⟩ := (mem_iff r.workOrderId).mp ⟨r, ⟨hr, hp⟩, rfl⟩
      have one := Table.eq_of_key_eq t.workOrders_unique (mem_inProgressRows hs)
        (mem_inProgressRows hr) same
        (Option.isSome_iff_ne_none.mp (hasId s hq))
      exact one ▸ hq
    · intro hq
      obtain ⟨s, ⟨hs, hp⟩, same⟩ := (mem_iff r.workOrderId).mpr ⟨r, ⟨hr, hq⟩, rfl⟩
      have one := Table.eq_of_key_eq t.workOrders_unique (mem_inProgressRows hr)
        (mem_inProgressRows hs) same.symm
        (Option.isSome_iff_ne_none.mp (hasId r hq))
      exact one ▸ hp
  · intro alike
    rw [List.filter_congr alike]

/-- What both sides make of the rows and of those that claim the edit. -/
def charged (rows claimants : List HookWorkOrder) : Option ActiveWorkOrder :=
  match claimants with
  | [] => rows.head?.map (Enforcement.asDict .mostRecentlyStarted)
  | chosen :: others =>
    some { Enforcement.asDict .moduleBoundary chosen with
      claimants := (chosen :: others).map (·.workOrderId) }

theorem Enforcement.inProgressWorkOrder_eq :
    Enforcement.inProgressWorkOrder env t projectId edited =
      charged (t.inProgressRows projectId)
        ((t.inProgressRows projectId).filter (Enforcement.claims env edited)) := by
  unfold Enforcement.inProgressWorkOrder
  cases t.inProgressRows projectId with
  | nil => rfl
  | cons first rest =>
    change
      (match Enforcement.matched env edited (first :: rest) with
        | [] => _ | chosen :: others => _) = _
    rw [Enforcement.matched_eq]
    cases (first :: rest).filter (Enforcement.claims env edited) <;> rfl

theorem Native.inProgressWorkOrder_eq :
    Native.inProgressWorkOrder env t projectId edited =
      charged ((t.inProgressRows projectId).filter Native.decodes)
        ((t.inProgressRows projectId).filter fun r => Native.decodes r &&
          Native.claims env edited r) := by
  have both :
      (t.inProgressRows projectId).filter
        (fun r => Native.decodes r && Native.claims env edited r) =
      ((t.inProgressRows projectId).filter Native.decodes).filter (Native.claims env edited) := by
    rw [List.filter_filter]
    exact List.filter_congr fun r _ => Bool.and_comm _ _
  rw [both]
  unfold Native.inProgressWorkOrder
  cases (t.inProgressRows projectId).filter Native.decodes with
  | nil => rfl
  | cons first rest =>
    change
      (match Native.matched env edited (first :: rest) with
        | [] => _ | chosen :: others => _) = _
    rw [Native.matched_eq]
    cases (first :: rest).filter (Native.claims env edited) <;> rfl

theorem charged_claimants (rows claimants : List HookWorkOrder) :
    (charged rows claimants).elim [] (·.claimants) = claimants.map (·.workOrderId) := by
  cases claimants with
  | nil => cases rows <;> rfl
  | cons chosen others => rfl

/-- The boundaries claim the edit for the same rows on both sides, and the native hook can read
these, or where there are none the row that was started last. -/
def HookAuthority.Charges (env : HookEnv) (t : HookAuthority) (projectId : String)
    (edited : Option (ResolvedPath × ResolvedPath)) : Prop :=
  (∀ r ∈ t.inProgressRows projectId,
      Enforcement.claims env edited r = (Native.decodes r && Native.claims env edited r)) ∧
    ((∃ r ∈ t.inProgressRows projectId, Enforcement.claims env edited r) ∨
      ∀ r ∈ (t.inProgressRows projectId).head?, Native.decodes r)

theorem charged_nil_eq_iff {rows : List HookWorkOrder} :
    charged rows [] = charged (rows.filter Native.decodes) [] ↔
      ∀ r ∈ rows.head?, Native.decodes r := by
  unfold charged
  cases rows with
  | nil => simp
  | cons first rest =>
    by_cases read : Native.decodes first
    · simp [read]
    · simp only [List.filter_cons, read, List.head?_cons, Option.mem_some_iff, forall_eq']
      refine iff_of_false (fun same => read ?_) (by simp)
      obtain ⟨r, found, isFirst⟩ := Option.map_eq_some_iff.mp same.symm
      have decodes := (List.mem_filter.mp (List.mem_of_mem_head? found)).2
      have ids : r.workOrderId = first.workOrderId := congrArg ActiveWorkOrder.workOrderId isFirst
      have titles : r.title = first.title := congrArg ActiveWorkOrder.title isFirst
      unfold Native.decodes at decodes ⊢
      rw [← ids, ← titles]
      exact decodes

theorem inProgressWorkOrder_eq_iff :
    Enforcement.inProgressWorkOrder env t projectId edited =
      Native.inProgressWorkOrder env t projectId edited ↔
      t.Charges env projectId edited := by
  have alike_iff := filter_ids_eq_iff t projectId (p := Enforcement.claims env edited)
    (q := fun r => Native.decodes r && Native.claims env edited r) fun r read => by
      simp only [Native.decodes, Bool.and_eq_true] at read
      exact read.1.1
  rw [Enforcement.inProgressWorkOrder_eq, Native.inProgressWorkOrder_eq,
    HookAuthority.Charges, ← alike_iff]
  constructor
  · intro same
    have ids := congrArg (fun o : Option ActiveWorkOrder => o.elim [] (·.claimants)) same
    simp only [charged_claimants] at ids
    refine ⟨ids, or_iff_not_imp_left.mpr fun unclaimed => ?_⟩
    have none : (t.inProgressRows projectId).filter (Enforcement.claims env edited) = [] :=
      List.filter_eq_nil_iff.mpr fun r hr claims => unclaimed ⟨r, hr, claims⟩
    rw [← List.filter_congr (alike_iff.mp ids), none] at same
    exact charged_nil_eq_iff.mp same
  · rintro ⟨ids, claimed | started⟩
    · rw [← List.filter_congr (alike_iff.mp ids)]
      cases chosen : (t.inProgressRows projectId).filter (Enforcement.claims env edited) with
      | nil =>
        obtain ⟨r, hr, claims⟩ := claimed
        exact absurd claims (List.filter_eq_nil_iff.mp chosen r hr)
      | cons first others => rfl
    · rw [← List.filter_congr (alike_iff.mp ids)]
      cases chosen : (t.inProgressRows projectId).filter (Enforcement.claims env edited) with
      | nil => exact charged_nil_eq_iff.mpr started
      | cons first others => rfl

/-! The suggestion. -/

theorem nextCreatedWorkOrder_eq_iff :
    Enforcement.nextCreatedWorkOrder t projectId = Native.nextCreatedWorkOrder t projectId ↔
      ∀ r ∈ (t.createdRows (!t.waits ·) projectId).head?, Native.decodes r := by
  unfold Enforcement.nextCreatedWorkOrder Native.nextCreatedWorkOrder
  cases (t.createdRows (!t.waits ·) projectId).head? with
  | none => simp
  | some r =>
    by_cases read : Native.decodes r
    · simp [read, Native.suggestion]
    · simp only [read, Option.mem_some_iff, forall_eq']
      refine iff_of_false (fun same => read ?_) (by simp)
      obtain ⟨s, found, isFirst⟩ := Option.map_eq_some_iff.mp same.symm
      obtain ⟨-, decodes⟩ := Option.filter_eq_some_iff.mp found
      have ids : s.workOrderId = r.workOrderId := congrArg NextWorkOrder.workOrderId isFirst
      have titles : s.title = r.title := congrArg NextWorkOrder.title isFirst
      unfold Native.decodes at decodes ⊢
      rw [← ids, ← titles]
      exact decodes

/-- The hooks read an authority alike, and neither raises, exactly if the candidates rank alike, the
boundaries charge alike and the native hook can decode the work order it is to suggest. -/
theorem HookAuthority.hooks_alike_iff (env : HookEnv) (t : HookAuthority) (path : ResolvedPath)
    (projectId : String) (edited : Option (ResolvedPath × ResolvedPath)) :
    (Enforcement.matchRegisteredProject env t path =
      .ok (Native.matchRegisteredProject env t path) ∧
        Enforcement.inProgressWorkOrder env t projectId edited =
          Native.inProgressWorkOrder env t projectId edited ∧
        Enforcement.nextCreatedWorkOrder t projectId = Native.nextCreatedWorkOrder t projectId) ↔
      t.Ranks env path ∧ t.Charges env projectId edited ∧
        ∀ r ∈ (t.createdRows (!t.waits ·) projectId).head?, Native.decodes r := by
  rw [matchRegisteredProject_eq_iff, inProgressWorkOrder_eq_iff, nextCreatedWorkOrder_eq_iff]

theorem noProjects_unique : Table.Unique HookProject.key [] := List.Pairwise.nil

def untitled : HookAuthority where
  projects := []
  workOrders := [⟨some "w", some "p", none, none, none, "in_progress", none, none, none⟩]
  milestones := []
  dependencies := []
  projects_unique := noProjects_unique
  workOrders_unique := List.pairwise_singleton _ _

/-- Two projects at one path. -/
def shared : HookAuthority where
  projects := [⟨some "p", "P", "active", some "/repo"⟩, ⟨some "q", "Q", "active", some "/repo"⟩]
  workOrders := []
  milestones := []
  dependencies := []
  projects_unique := by decide
  workOrders_unique := List.Pairwise.nil

def plainEnv : HookEnv where
  py := bareStdlib
  resolve path := some ((path.toList.splitOnP (· = '/')).map String.ofList |>.filter (· ≠ ""))
  dsHome := ["home", "ds"]
  tempRoot := ["tmp"]

/-- Python raises over the two projects, and the native hook drops the work order without a
title. -/
theorem HookAuthority.unlike :
    ¬(∀ (env : HookEnv) (t : HookAuthority) (path : ResolvedPath) (projectId : String)
        (edited : Option (ResolvedPath × ResolvedPath)),
        Enforcement.matchRegisteredProject env t path =
          .ok (Native.matchRegisteredProject env t path) ∧
          Enforcement.inProgressWorkOrder env t projectId edited =
            Native.inProgressWorkOrder env t projectId edited ∧
          Enforcement.nextCreatedWorkOrder t projectId = Native.nextCreatedWorkOrder t projectId) ∧
      (Enforcement.matchRegisteredProject plainEnv shared ["repo", "a.py"]).toOption = none ∧
      Enforcement.inProgressWorkOrder plainEnv untitled "p" none ≠ none ∧
      Native.inProgressWorkOrder plainEnv untitled "p" none = none := by
  refine ⟨fun alike => ?_, by decide +kernel, by decide, by decide⟩
  have dropped := (alike plainEnv untitled [] "p" none).2.1
  exact absurd dropped (by decide)

end DreamStudio.Hooks
