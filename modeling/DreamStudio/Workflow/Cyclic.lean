import DreamStudio.Workflow.Validate

namespace DreamStudio.Workflow

open Library

section Ids

def Document.declared (d : Document) : List String := (collectIds d.nodes).1

theorem collectId_ids {acc : List String × List String} (nodup : acc.1.Nodup) (n : RawNode) :
    (collectId acc n).1.Nodup ∧ ∀ x, x ∈ (collectId acc n).1 ↔ x ∈ acc.1 ∨ x ≠ "" ∧ n.id = x := by
  rw [collectId]
  split
  next unnamed =>
    apply And.intro nodup
    intro x
    exact (or_iff_left fun h => h.1 (h.2.symm.trans unnamed)).symm
  next named =>
    split
    next old =>
      apply And.intro nodup
      intro x
      exact (or_iff_left_of_imp fun h => h.2 ▸ old).symm
    next new =>
      apply And.intro (List.concat_eq_append ▸ nodup.concat new)
      intro x
      rw [List.mem_append, List.mem_singleton]
      apply or_congr_right
      exact ⟨fun same => ⟨same ▸ named, same.symm⟩, fun h => h.2.symm⟩

theorem collectIds_ids (nodes : List RawNode) :
    (collectIds nodes).1.Nodup ∧ ∀ x, x ∈ (collectIds nodes).1 ↔
      x ≠ "" ∧ ∃ n ∈ nodes, n.id = x := by
  induction nodes using List.reverseRecOn with
  | nil => exact ⟨List.nodup_nil, by simp [collectIds]⟩
  | append_singleton nodes n ih =>
    have last : collectIds (nodes ++ [n]) = collectId (collectIds nodes) n := by
      rw [collectIds, List.foldl_append]
      rfl
    obtain ⟨nodup, mem⟩ := collectId_ids ih.1 n
    rw [last]
    apply And.intro nodup
    intro x
    rw [mem x, ih.2 x]
    simp only [List.mem_append, List.mem_singleton, or_and_right, exists_or,
      exists_eq_left, and_or_left]

end Ids

section Cycle

def Document.Depends (d : Document) (x y : String) : Prop :=
  x ∈ d.declared ∧ y ∈ d.declared ∧ ∃ n ∈ d.nodes, n.id = x ∧ y ∈ n.yaml.dependsOn

/-- A declared node leads back to itself. -/
def Document.Cyclic (d : Document) : Prop := ∃ x, Relation.TransGen d.Depends x x

variable {d : Document}

theorem mem_edgesOf_declared {x y : String} : (y, x) ∈ edgesOf d.declared d.nodes ↔
    d.Depends x y := by
  rw [mem_edgesOf, Document.Depends, Document.declared, (collectIds_ids d.nodes).2 x]
  constructor
  · rintro ⟨inside, named, n, member, same, dep⟩
    exact ⟨⟨named, n, member, same⟩, inside, n, member, same, dep⟩
  · rintro ⟨⟨named, -⟩, inside, depends⟩
    exact ⟨inside, named, depends⟩

theorem short_iff :
    (Kahn.run (edgesOf d.declared d.nodes) d.declared.length
      (Kahn.start (edgesOf d.declared d.nodes) d.declared)).visited <
      d.declared.length ↔ d.Cyclic := by
  have nodup : d.declared.Nodup := (collectIds_ids d.nodes).1
  have closed : ∀ e ∈ edgesOf d.declared d.nodes, e.1 ∈ d.declared ∧ e.2 ∈ d.declared := by
    intro e edge
    have depends := mem_edgesOf_declared.mp edge
    exact ⟨depends.2.1, depends.1⟩
  have same : (fun x y => (y, x) ∈ edgesOf d.declared d.nodes) = d.Depends := by
    funext x y
    exact propext mem_edgesOf_declared
  have acyclic_iff : ¬Acyclic d.Depends ↔ d.Cyclic := by
    rw [Acyclic, not_forall_not]
    rfl
  rw [← acyclic_iff, ← not_le, ← same]
  apply not_congr
  exact ⟨Kahn.acyclic_of_visited nodup fun e edge => (closed e edge).2,
    Kahn.visited_of_acyclic nodup closed⟩

end Cycle

section Reports

/-- The complaint is the one of the cycle check. -/
def reportsCycle (e : String) : Bool := startsWith e "Cycle detected"

def Other (e : String) : Prop := ∃ c ∈ e.toList.head?, c ≠ 'C'

theorem Other.append {a : String} (other : Other a) (b : String) : Other (a ++ b) := by
  apply other.imp
  intro c first
  apply And.intro _ first.2
  rw [String.toList_append, List.head?_append, first.1]
  rfl

theorem Other.not_cycle {e : String} (other : Other e) : reportsCycle e = false := by
  have text : "Cycle detected".toList = 'C' :: "ycle detected".toList := rfl
  obtain ⟨c, first, differs⟩ := other
  rw [reportsCycle, startsWith, text]
  cases chars : e.toList with
  | nil => rfl
  | cons b cs =>
    rw [chars] at first
    cases first
    rw [List.isPrefixOf, beq_false_of_ne differs.symm]
    rfl

theorem other_node : Other "Node \"" := ⟨'N', rfl, by decide⟩

theorem other_ite {p : Prop} [Decidable p] {as bs : List String} (some_ : ∀ e ∈ as, Other e)
    (none : ∀ e ∈ bs, Other e) : ∀ e ∈ if p then as else bs, Other e := by
  split
  · exact some_
  · exact none

theorem other_append {as bs : List String} (front : ∀ e ∈ as, Other e) (back : ∀ e ∈ bs, Other e) :
    ∀ e ∈ as ++ bs, Other e := by
  intro e member
  exact (List.mem_append.mp member).elim (front e) (back e)

theorem other_singleton {a : String} (other : Other a) : ∀ e ∈ [a], Other e :=
  List.forall_mem_singleton.mpr other

theorem other_nil : ∀ e ∈ ([] : List String), Other e := List.forall_mem_nil _

theorem collectIds_other (nodes : List RawNode) : ∀ e ∈ (collectIds nodes).2, Other e := by
  induction nodes using List.reverseRecOn with
  | nil => exact other_nil
  | append_singleton nodes n ih =>
    have last : collectIds (nodes ++ [n]) = collectId (collectIds nodes) n := by
      rw [collectIds, List.foldl_append]
      rfl
    rw [last, collectId]
    split
    · exact other_append ih (other_singleton ⟨'N', rfl, by decide⟩)
    · split
      · apply other_append ih (other_singleton _)
        exact Other.append (Other.append ⟨'D', rfl, by decide⟩ _) _
      · exact ih

theorem actionErrors_other (n : RawNode) : ∀ e ∈ actionErrors n, Other e := by
  apply other_append
  · exact other_ite (other_singleton ((other_node.append _).append _)) other_nil
  · exact other_ite (other_singleton ((other_node.append _).append _)) other_nil

variable {repr : Json → String} {resolves : String → Bool} {n : RawNode}
    {ids gates errors : List String}

theorem isIn_other {names : List String} {v : Json} {complaint : List String}
    (other : ∀ e ∈ complaint, Other e)
    (ran : (do if ← isIn names v then return [] else return complaint) = .ok errors) :
    ∀ e ∈ errors, Other e := by
  obtain ⟨present, -, ran⟩ := bind_eq_ok.mp ran
  cases present with
  | true => exact pure_eq_ok.mp ran ▸ other_nil
  | false => exact pure_eq_ok.mp ran ▸ other

theorem dependencyError_other {dep : Json} (ran : dependencyError repr ids n dep = .ok errors) :
    ∀ e ∈ errors, Other e :=
  isIn_other (other_singleton ((((other_node.append _).append _).append _).append _)) ran

theorem gateErrors_other (ran : gateErrors repr gates n = .ok errors) : ∀ e ∈ errors, Other e := by
  rw [gateErrors] at ran
  split at ran
  · exact isIn_other (other_singleton ((((other_node.append _).append _).append _).append _)) ran
  · exact pure_eq_ok.mp ran ▸ other_nil

theorem skillErrors_other (ran : skillErrors resolves n = .ok errors) : ∀ e ∈ errors, Other e := by
  rw [skillErrors] at ran
  split at ran
  · split at ran
    · rw [← Except.ok.inj ran]
      apply other_ite other_nil
      exact other_singleton
        ((((((other_node.append _).append _).append _).append _).append _).append _)
    · cases ran
  · exact Except.ok.inj ran ▸ other_nil

theorem nodeErrors_other (ran : nodeErrors repr resolves gates ids n = .ok errors) :
    ∀ e ∈ errors, Other e := by
  rw [nodeErrors] at ran
  simp only [bind_eq_ok, pure_eq_ok] at ran
  obtain ⟨items, -, perDep, loop, gate, gated, skill, skilled, rfl⟩ := ran
  apply other_append (other_append (other_append (actionErrors_other n) _) (gateErrors_other gated))
    (skillErrors_other skilled)
  intro e member
  obtain ⟨errors, reported, member⟩ := List.mem_flatten.mp member
  obtain ⟨dep, -, ran⟩ := (mapM_eq_ok loop).2 errors reported
  exact dependencyError_other ran e member

theorem onFailureErrors_other (v : Json) : ∀ e ∈ onFailureErrors ids v, Other e := by
  rw [onFailureErrors.eq_def]
  split
  · exact other_nil
  · apply other_ite other_nil
    exact other_singleton (Other.append (Other.append ⟨'W', rfl, by decide⟩ _) _)
  · exact other_singleton ⟨'W', rfl, by decide⟩

theorem fieldErrors_other (n : RawNode) : ∀ e ∈ fieldErrors n, Other e := by
  have complaint (text : String) : ∀ e ∈ ["Node \"" ++ n.id ++ "\": " ++ text], Other e :=
    other_singleton (((other_node.append _).append _).append _)
  apply other_append
  · apply other_append
    · exact other_ite (complaint _) other_nil
    · split
      · exact other_nil
      · exact other_ite (complaint _) (other_ite (complaint _) other_nil)
      · exact complaint _
  · exact other_ite (complaint _) other_nil

end Reports

section Readable

def hashable : Json → Bool
  | .arr _ | .obj _ => false
  | _ => true

/-- No check raises on the fields of the node. -/
structure RawNode.Readable (n : RawNode) : Prop where
  depends : ∃ items, n.dependsOn = .ok items ∧ ∀ dep ∈ items, hashable dep = true
  gate : (n.get "gate").truthy = true → hashable (n.get "gate") = true
  skill : (n.get "skill").truthy = true → ∃ s, n.get "skill" = .str s

theorem exists_isIn_iff {names : List String} {v : Json} : (∃ b, isIn names v = .ok b) ↔
    hashable v = true := by
  cases v with
  | arr | obj => exact iff_of_false (by rintro ⟨_, ⟨⟩⟩) nofun
  | null | bool | int | float | str => exact iff_of_true ⟨_, rfl⟩ rfl

theorem exists_ite_isIn_iff {names : List String} {v : Json} {complaint : List String} :
    (∃ errors, (do if ← isIn names v then return [] else return complaint : Except String
      (List String)) = .ok errors) ↔
      hashable v = true := by
  rw [← @exists_isIn_iff names]
  apply Iff.intro
  · rintro ⟨errors, ran⟩
    exact (bind_eq_ok.mp ran).imp fun _ h => h.1
  · rintro ⟨present, checked⟩
    rw [checked, ok_bind]
    cases present with
    | true => exact ⟨[], rfl⟩
    | false => exact ⟨complaint, rfl⟩

variable {repr : Json → String} {resolves : String → Bool} {n : RawNode} {ids gates : List String}

theorem exists_gateErrors_iff :
    (∃ errors, gateErrors repr gates n = .ok errors) ↔
      ((n.get "gate").truthy = true → hashable (n.get "gate") = true) := by
  rw [gateErrors]
  by_cases given : (n.get "gate").truthy = true
  · rw [if_pos given, exists_ite_isIn_iff, imp_iff_right given]
  · rw [if_neg given]
    exact iff_of_true ⟨[], rfl⟩ fun h => absurd h given

theorem exists_skillErrors_iff :
    (∃ errors, skillErrors resolves n = .ok errors) ↔
      ((n.get "skill").truthy = true → ∃ s, n.get "skill" = .str s) := by
  rw [skillErrors]
  by_cases given : (n.get "skill").truthy = true
  · rw [if_pos given, imp_iff_right given]
    cases n.get "skill" with
    | str s => exact iff_of_true ⟨_, rfl⟩ ⟨s, rfl⟩
    | null | bool | int | float | arr | obj => exact iff_of_false (by rintro ⟨_, ⟨⟩⟩) (by rintro ⟨_, ⟨⟩⟩)
  · rw [if_neg given]
    exact iff_of_true ⟨[], rfl⟩ fun h => absurd h given

theorem exists_nodeErrors_iff : (∃ errors, nodeErrors repr resolves gates ids n = .ok errors) ↔
    n.Readable := by
  have perDep (items : List Json) :
      (∃ deps, items.mapM (dependencyError repr ids n) = .ok deps) ↔
        ∀ dep ∈ items, hashable dep = true := by
    rw [exists_mapM_eq_ok_iff]
    exact forall₂_congr fun _ _ => exists_ite_isIn_iff
  rw [nodeErrors]
  simp only [bind_eq_ok, pure_eq_ok]
  apply Iff.intro
  · rintro ⟨_, items, depends, deps, loop, gate, gated, skill, skilled, -⟩
    exact ⟨⟨items, depends, (perDep items).mp ⟨deps, loop⟩⟩, exists_gateErrors_iff.mp ⟨gate, gated⟩,
      exists_skillErrors_iff.mp ⟨skill, skilled⟩⟩
  · intro readable
    obtain ⟨items, depends, each⟩ := readable.depends
    obtain ⟨deps, loop⟩ := (perDep items).mpr each
    obtain ⟨gate, gated⟩ := (@exists_gateErrors_iff repr n gates).mpr readable.gate
    obtain ⟨skill, skilled⟩ := (@exists_skillErrors_iff resolves n).mpr readable.skill
    exact ⟨_, items, depends, deps, loop, gate, gated, skill, skilled, rfl⟩

end Readable

section Validate

theorem cycleErrors_iff (d : Document) :
    (∃ e ∈ cycleErrors d.declared d.nodes, reportsCycle e = true) ↔ d.Cyclic := by
  have text (names : String) : reportsCycle ("Cycle detected: " ++ names) = true := by
    have split : "Cycle detected: " = "Cycle detected" ++ ": " := rfl
    rw [split, String.append_assoc]
    exact startsWith_append _ _
  rw [← short_iff, cycleErrors]
  split
  next short => exact iff_of_true ⟨_, List.mem_singleton_self _, text _⟩ short
  next all => exact iff_of_false (by rintro ⟨_, ⟨⟩, -⟩) all

variable {repr : Json → String} {resolves : String → Bool} {d : Document}

theorem validate_reports_iff {errors : List String} (ran : validate repr resolves d = .ok errors) :
    (∃ e ∈ errors, reportsCycle e = true) ↔ d.Cyclic := by
  rw [validate] at ran
  obtain ⟨perNode, loop, ran⟩ := bind_eq_ok.mp ran
  have others : ∀ e ∈ (collectIds d.nodes).2 ++ perNode.flatten ++
      onFailureErrors (collectIds d.nodes).1 d.onFailure ++
      d.nodes.flatMap fieldErrors, Other e := by
    apply other_append (other_append (other_append (collectIds_other _) _)
      (onFailureErrors_other _))
    · intro e member
      obtain ⟨n, -, complained⟩ := List.mem_flatMap.mp member
      exact fieldErrors_other n e complained
    · intro e member
      obtain ⟨errors, reported, complained⟩ := List.mem_flatten.mp member
      obtain ⟨n, -, ran⟩ := (mapM_eq_ok loop).2 errors reported
      exact nodeErrors_other ran e complained
  rw [← cycleErrors_iff, ← pure_eq_ok.mp ran]
  apply Iff.intro
  · rintro ⟨e, member, reports⟩
    apply Exists.intro e
    apply And.intro _ reports
    apply (List.mem_append.mp member).resolve_left
    intro other
    rw [(others e other).not_cycle] at reports
    cases reports
  · rintro ⟨e, member, reports⟩
    exact ⟨e, List.mem_append_right _ member, reports⟩

theorem exists_validate_iff : (∃ errors, validate repr resolves d = .ok errors) ↔
    ∀ n ∈ d.nodes, n.Readable := by
  have perNode := @exists_mapM_eq_ok_iff
    _ _ _ (nodeErrors repr resolves d.gates (collectIds d.nodes).1) d.nodes
  rw [validate]
  simp only [bind_eq_ok, pure_eq_ok]
  apply Iff.intro
  · rintro ⟨_, errors, loop, -⟩ n member
    exact exists_nodeErrors_iff.mp (perNode.mp ⟨errors, loop⟩ n member)
  · intro readable
    obtain ⟨errors, loop⟩ := perNode.mpr fun n member => exists_nodeErrors_iff.mpr
      (readable n member)
    exact ⟨_, errors, loop, rfl⟩

/-- Whatever the nodes are, what `validate` returns has the complaint of a cycle exactly where a
declared node leads back to itself; and it returns where no field is of a type that a check raises
on. -/
theorem validate_cycle_iff (repr : Json → String) (resolves : String → Bool) (d : Document) :
    (∀ errors, validate repr resolves d = .ok errors →
      ((∃ e ∈ errors, reportsCycle e = true) ↔ d.Cyclic)) ∧
      ((∃ errors, validate repr resolves d = .ok errors) ↔ ∀ n ∈ d.nodes, n.Readable) :=
  ⟨fun _ ran => validate_reports_iff ran, exists_validate_iff⟩

def twoBuilds : Document where
  nodes := [
    { id := "build"
      fields := [("skill", .str "builder"), ("depends_on", .arr [.str "ship", .str "ship"])] },
    { id := "build", fields := [("skill", .str "builder"), ("depends_on", .str "lint")] },
    { id := "ship", fields := [("skill", .str "shipper"), ("depends_on", .arr [.str "build"])] }]

theorem twoBuilds_cyclic : ∃ errors, validate Json.pyType (fun _ => true) twoBuilds = .ok errors ∧
    twoBuilds.Cyclic := by
  have ran : (validate Json.pyType (fun _ => true) twoBuilds).toOption.any (·.any reportsCycle) =
      true := by
    decide +kernel
  obtain ⟨errors, returned, reports⟩ := (Option.any_eq_true _ _).mp ran
  have returns := toOption_eq_some.mp returned
  have cycle := (validate_cycle_iff Json.pyType (fun _ => true) twoBuilds).1 errors returns
  exact ⟨errors, returns, cycle.mp (List.any_eq_true.mp reports)⟩

end Validate

end DreamStudio.Workflow
