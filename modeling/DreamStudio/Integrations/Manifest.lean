import DreamStudio.Integrations.Installer
import DreamStudio.Library.Machine
import Mathlib.Data.List.Dedup

namespace DreamStudio.Integrations

open Library

def FileOp.records (op : FileOp) : Bool := op.op ≠ .delete ∧ op.op ≠ .skip

namespace FileOp

variable {op : FileOp}

theorem records_of_writes (h : op.writes = true) : op.records = true := by
  simp only [writes, records, decide_eq_true_eq] at *
  exact ⟨h.1, h.2.1⟩

end FileOp

theorem FileOp.kinds (op : FileOp) :
    op.op = .skip ∨ op.op = .keep ∨ op.op = .delete ∨ op.writes = true := by
  cases kind : op.op <;> simp [FileOp.writes, kind]

/-- The paths a manifest lists with another operation than `skip`. -/
def Listed (files : Manifest) (p : Path) : Prop := ∃ e ∈ files, e.path = p ∧ e.operation ≠ .skip

theorem listed_append (files files' : Manifest) (p : Path) :
    Listed (files ++ files') p ↔ Listed files p ∨ Listed files' p := by
  simp only [Listed, List.mem_append, or_and_right, exists_or]

theorem listed_singleton {q p : Path} {kind : Operation} (kept : kind ≠ .skip) :
    Listed [⟨q, kind⟩] p ↔ q = p := by
  constructor
  · rintro ⟨e, member, same, -⟩
    rwa [List.mem_singleton.mp member] at same
  · intro same
    exact ⟨_, List.mem_singleton_self _, same, kept⟩

namespace Work

variable (w : Work) {op : FileOp}

theorem execute_skip (skip : op.op = .skip) : w.execute op = w := by
  rw [execute, skip]

theorem execute_keep (keep : op.op = .keep) :
    w.execute op = { w with files := w.files ++ [⟨op.target, .keep⟩] } := by
  rw [execute, keep]

theorem execute_delete (delete : op.op = .delete) :
    w.execute op = { w with disk := Function.update w.disk op.target none } := by
  rw [execute, delete]

theorem execute_writes (writes : op.writes = true) :
    w.execute op =
      if w.disk op.target = some op.content then
        { w with files := w.files ++ [⟨op.target, .unchanged⟩] }
      else {
        disk := Function.update w.disk op.target (some op.content)
        files := w.files ++ [⟨op.target, op.op⟩]
        created := if (w.disk op.target).isNone then w.created ++ [op.target] else w.created } := by
  cases kind : op.op with
  | skip | keep | delete => simp [FileOp.writes, kind] at writes
  | create | mergeJson | unchanged => rw [execute, kind]

variable (op)

theorem execute_listed (p : Path) :
    Listed (w.execute op).files p ↔ Listed w.files p ∨ op.records = true ∧ op.target = p := by
  obtain skip | keep | delete | writes := op.kinds
  · simp [w.execute_skip skip, FileOp.records, skip]
  · simp [w.execute_keep keep, FileOp.records, keep, listed_append, listed_singleton]
  · simp [w.execute_delete delete, FileOp.records, delete]
  · have records := FileOp.records_of_writes writes
    have kept : op.op ≠ .skip := (of_decide_eq_true writes).2.1
    rw [w.execute_writes writes]
    split
    · simp [records, listed_append, listed_singleton]
    · simp [records, listed_append, listed_singleton kept]

theorem execute_passed (clean : ∀ e ∈ w.files, e.passed = false) :
    ∀ e ∈ (w.execute op).files, e.passed = false := by
  have added {kind : Operation} (kept : (⟨op.target, kind⟩ : Entry).passed = false) :
      ∀ e ∈ w.files ++ [⟨op.target, kind⟩], e.passed = false := by
    intro e member
    rcases List.mem_append.mp member with old | new
    · exact clean e old
    · rwa [List.mem_singleton.mp new]
  obtain skip | keep | delete | writes := op.kinds
  · rwa [w.execute_skip skip]
  · rw [w.execute_keep keep]
    exact added rfl
  · rwa [w.execute_delete delete]
  · rw [w.execute_writes writes]
    split
    · exact added rfl
    · apply added
      have kept := of_decide_eq_true writes
      simp [Entry.passed, kept.1, kept.2.1]

theorem execute_disk_of_other {p : Path}
    (other : op.target = p → op.op ≠ .delete ∧ op.writes = false) :
    (w.execute op).disk p = w.disk p := by
  obtain skip | keep | delete | writes := op.kinds
  · rw [w.execute_skip skip]
  · rw [w.execute_keep keep]
  · rw [w.execute_delete delete]
    exact Function.update_of_ne (fun same => (other same.symm).1 delete) _ _
  · rw [w.execute_writes writes]
    split
    · rfl
    · apply Function.update_of_ne
      intro same
      rw [(other same.symm).2] at writes
      cases writes

theorem execute_disk_of_not_writes {p : Path} (gone : w.disk p = none)
    (other : op.target = p → op.writes = false) : (w.execute op).disk p = none := by
  by_cases delete : op.op = .delete
  · rw [w.execute_delete delete]
    by_cases same : p = op.target
    · rw [same]
      exact Function.update_self _ _ _
    · exact (Function.update_of_ne same _ _).trans gone
  · rw [w.execute_disk_of_other op fun same => ⟨delete, other same⟩, gone]

theorem execute_created (p : Path) (member : p ∈ (w.execute op).created) :
    p ∈ w.created ∨ op.writes = true ∧ op.target = p := by
  obtain skip | keep | delete | writes := op.kinds
  · rw [w.execute_skip skip] at member
    exact Or.inl member
  · rw [w.execute_keep keep] at member
    exact Or.inl member
  · rw [w.execute_delete delete] at member
    exact Or.inl member
  · rw [w.execute_writes writes] at member
    split at member
    · exact Or.inl member
    · dsimp only at member
      split at member
      · rcases List.mem_append.mp member with old | new
        · exact Or.inl old
        · exact Or.inr ⟨writes, (List.mem_singleton.mp new).symm⟩
      · exact Or.inl member

theorem execute_created_mono {p : Path} (member : p ∈ w.created) : p ∈ (w.execute op).created := by
  obtain skip | keep | delete | writes := op.kinds
  · rwa [w.execute_skip skip]
  · rwa [w.execute_keep keep]
  · rwa [w.execute_delete delete]
  · rw [w.execute_writes writes]
    split
    · exact member
    · dsimp only
      split
      · exact List.mem_append_left _ member
      · exact member

variable {w} (ops : List FileOp)

theorem run_listed (w : Work) (p : Path) : Listed (ops.foldl execute w).files p ↔
    Listed w.files p ∨ ∃ op ∈ ops, op.records = true ∧ op.target = p := by
  induction ops generalizing w with
  | nil => simp
  | cons op ops ih =>
    rw [List.foldl_cons, ih, execute_listed]
    simp [or_assoc]

theorem run_passed (clean : ∀ e ∈ w.files, e.passed = false) :
    ∀ e ∈ (ops.foldl execute w).files, e.passed = false := by
  induction ops generalizing w with
  | nil => exact clean
  | cons op ops ih => exact ih (w.execute_passed op clean)

theorem run_disk_of_other {p : Path}
    (other : ∀ op ∈ ops, op.target = p → op.op ≠ .delete ∧ op.writes = false) :
    (ops.foldl execute w).disk p = w.disk p := by
  induction ops generalizing w with
  | nil => rfl
  | cons op ops ih =>
    obtain ⟨here, later⟩ := List.forall_mem_cons.mp other
    rw [List.foldl_cons, ih later, w.execute_disk_of_other op here]

theorem run_disk_of_gone {p : Path} (gone : w.disk p = none)
    (other : ∀ op ∈ ops, op.target = p → op.writes = false) :
    (ops.foldl execute w).disk p = none := by
  induction ops generalizing w with
  | nil => exact gone
  | cons op ops ih =>
    obtain ⟨here, later⟩ := List.forall_mem_cons.mp other
    exact ih (w.execute_disk_of_not_writes op gone here) later

theorem run_disk_of_deleted {op : FileOp} (member : op ∈ ops) (delete : op.op = .delete)
    (other : ∀ op' ∈ ops, op'.target = op.target → op'.writes = false) :
    (ops.foldl execute w).disk op.target = none := by
  induction ops generalizing w with
  | nil => cases member
  | cons first ops ih =>
    obtain ⟨-, later⟩ := List.forall_mem_cons.mp other
    rcases List.mem_cons.mp member with rfl | member
    · apply run_disk_of_gone ops _ later
      rw [w.execute_delete delete]
      exact Function.update_self _ _ _
    · exact ih member later

theorem run_created (p : Path) (member : p ∈ (ops.foldl execute w).created) :
    p ∈ w.created ∨ ∃ op ∈ ops, op.writes = true ∧ op.target = p := by
  induction ops generalizing w with
  | nil => exact Or.inl member
  | cons op ops ih =>
    rcases ih member with earlier | ⟨op', later, writes⟩
    · rcases w.execute_created op p earlier with earlier | here
      · exact Or.inl earlier
      · exact Or.inr ⟨op, List.mem_cons_self, here⟩
    · exact Or.inr ⟨op', List.mem_cons_of_mem op later, writes⟩

theorem run_created_mono {p : Path} (member : p ∈ w.created) :
    p ∈ (ops.foldl execute w).created := by
  induction ops generalizing w with
  | nil => exact member
  | cons op ops ih => exact ih (w.execute_created_mono op member)

end Work

theorem isParent_append (ancestor : Path) (name : String) (rest : Path) :
    isParent ancestor (ancestor ++ name :: rest) = true := by
  simp [isParent]

theorem ne_nil_of_isParent {ancestor p : Path} (h : isParent ancestor p = true) : p ≠ [] := by
  rintro rfl
  simp [isParent] at h

section Plan

variable {i : Install} {site : Site} {disk : Disk} {manifest : Option Manifest}
    {op : FileOp} {p : Path}

theorem mem_plan : op ∈ plan i site disk manifest ↔ op ∈ i.collected site disk manifest ∧
    ¬ (op.op = .delete ∧ ∃ op' ∈ i.collected site disk manifest, op'.writes = true ∧
      op'.target = op.target) := by
  simp only [plan, List.mem_filter, List.mem_map, Bool.not_eq_true',
    decide_eq_false_iff_not, and_assoc]

/-- A recorded file has its place in a run again: a skill file, which is synced or swept; a hook
file in module mode, which is retired or kept; or a file that the run installs. -/
inductive Renewed (i : Install) (site : Site) (disk : Disk) : Path → Prop
  | skill {p : Path} (h : isParent site.skills p = true) : Renewed i site disk p
  | retired {p : Path} (mode : i.hookMode = .module) (h : isParent site.hooks p = true) :
    Renewed i site disk p
  | hook {f : SourceFile} (mode : i.hookMode = .files) (h : f ∈ i.hooks.projection site.hooks) :
      Renewed i site disk (site.hooks ++ f.rel)
  | claudeMd {generated : String} (h : i.claudeMd = some generated)
      (merges : (mergeClaudeMd (disk site.claudeMd) generated).isSome) :
      Renewed i site disk site.claudeMd
  | agentsMd {content : String} (h : i.agentsMd = some content) (nonempty : content ≠ "") :
      Renewed i site disk site.agentsMd
  | settings : Renewed i site disk site.settings
  | agent {a : AgentFile} (h : a ∈ i.canonicalAgents) (takes : i.takes a = true) :
      Renewed i site disk (site.agents ++ a.rel)
  | projectReviewer {a : AgentFile} (h : a ∈ i.projectReviewers) (takes : i.takesProject a = true) :
      Renewed i site disk (site.agents ++ [a.name])
  | gitHook {f : SourceFile} (h : i.gitHook = some f) : Renewed i site disk f.rel
  | version {v : String} (mode : i.hookMode = .files) (h : i.version = some v) :
      Renewed i site disk site.installedVersion

theorem renewed_of_mem_skillOps (member : op ∈ i.skillOps site) :
    isParent site.skills op.target = true := by
  obtain ⟨d, -, member⟩ := List.mem_flatMap.mp member
  obtain ⟨f, -, rfl⟩ := List.mem_map.mp member
  rw [create, List.append_assoc]
  exact isParent_append _ _ _

theorem renewed_of_mem_staleHookOps {files : Manifest}
    (member : op ∈ i.staleHookOps site disk files) :
    isParent site.hooks op.target = true := by
  obtain ⟨q, member, found⟩ := List.mem_filterMap.mp member
  have under : isParent site.hooks q = true := by
    rw [List.mem_reverse, List.mem_dedup, List.mem_reverse] at member
    obtain ⟨e, recorded, rfl⟩ := List.mem_map.mp member
    exact (of_decide_eq_true (List.mem_filter.mp recorded).2).2.2
  have same : op.target = q := by
    rw [Install.staleHookOp] at found
    split at found
    · cases found
      rfl
    · dsimp only at found
      split at found
      · split at found
        · cases found
        · split at found
          · cases found
            rfl
          · cases found
            rfl
      · cases found
        rfl
  rwa [same]

theorem renewed_of_mem_collected (member : op ∈ i.collected site disk manifest)
    (touched : op.op ≠ .skip) :
    Renewed i site disk op.target := by
  simp only [Install.collected, List.mem_append] at member
  rcases member with ((((((((member | member) | member) | member) | member) | member) | member) | member) |
    member) | member
  · exact .skill (renewed_of_mem_skillOps member)
  · obtain ⟨e, recorded, rfl⟩ := List.mem_map.mp member
    exact .skill (of_decide_eq_true (List.mem_filter.mp recorded).2).2.2.2
  · rw [Install.claudeMdOps] at member
    split at member
    · cases member
    · next generated given =>
      split at member
      · rw [List.mem_singleton.mp member] at touched
        exact absurd rfl touched
      · next merges =>
        rw [List.mem_singleton.mp member]
        exact .claudeMd given (by rw [merges]; rfl)
  · rw [Install.agentsMdOps] at member
    split at member
    · cases member
    · next content given =>
      split at member
      · cases member
      · next nonempty =>
        rw [List.mem_singleton.mp member]
        exact .agentsMd given nonempty
  · rw [Install.settingsOps, List.mem_pair] at member
    rcases member with rfl | rfl
    · exact .settings
    · exact absurd rfl touched
  · rcases List.mem_append.mp member with member | member
    · obtain ⟨a, taken, rfl⟩ := List.mem_map.mp member
      obtain ⟨known, takes⟩ := List.mem_filter.mp taken
      exact .agent known takes
    · obtain ⟨a, taken, rfl⟩ := List.mem_map.mp member
      obtain ⟨known, takes⟩ := List.mem_filter.mp taken
      exact .projectReviewer known takes
  · rw [Install.contractOps] at member
    cases contract : i.contract with
    | none => rw [contract] at member; cases member
    | some text =>
      rw [contract] at member
      rw [List.mem_singleton.mp member]
      exact .skill (isParent_append _ _ _)
  · rw [Install.hookOps] at member
    split at member
    · next mode =>
      obtain ⟨f, projected, rfl⟩ := List.mem_map.mp member
      exact .hook mode projected
    · next mode => exact .retired mode (renewed_of_mem_staleHookOps member)
  · rw [Install.gitHookOps] at member
    cases hook : i.gitHook with
    | none => rw [hook] at member; cases member
    | some f =>
      rw [hook] at member
      rw [List.mem_singleton.mp member]
      exact .gitHook hook
  · rw [Install.versionOps] at member
    split at member
    · next mode given =>
      rw [List.mem_singleton.mp member]
      exact .version mode given
    · cases member

theorem writes_of_mem_skillOps (member : op ∈ i.skillOps site) : op.writes = true := by
  obtain ⟨d, -, member⟩ := List.mem_flatMap.mp member
  obtain ⟨f, -, rfl⟩ := List.mem_map.mp member
  rfl

variable (i site) in
theorem staleHookOp_eq_some (there : disk p ≠ none) :
    ∃ op, i.staleHookOp site disk p = some op ∧ op.target = p ∧
      (op.records = true ∨ op = ⟨p, .delete, ""⟩) := by
  rw [Install.staleHookOp]
  split
  · exact ⟨_, rfl, rfl, Or.inr rfl⟩
  · dsimp only
    split
    · split
      · next gone => exact absurd gone there
      · split
        · exact ⟨_, rfl, rfl, Or.inl rfl⟩
        · exact ⟨_, rfl, rfl, Or.inl rfl⟩
    · exact ⟨_, rfl, rfl, Or.inl rfl⟩

variable (manifest) in
theorem written_of_renewed (renewed : Renewed i site disk p) :
    isParent site.skills p = true ∨ i.hookMode = .module ∧ isParent site.hooks p = true ∨
      ∃ op ∈ i.collected site disk manifest, op.writes = true ∧ op.target = p := by
  simp only [Install.collected, List.mem_append]
  cases renewed with
  | skill under => exact Or.inl under
  | retired mode under => exact Or.inr (Or.inl ⟨mode, under⟩)
  | @hook f mode projected =>
    refine Or.inr (Or.inr ⟨create _ f.text, ?_, rfl, rfl⟩)
    rw [Install.hookOps, mode]
    simp only [collectHookFileOps]
    exact Or.inl (Or.inl (Or.inr (List.mem_map_of_mem projected)))
  | claudeMd given merges =>
    obtain ⟨merged, merges⟩ := Option.isSome_iff_exists.mp merges
    refine Or.inr (Or.inr ⟨create site.claudeMd merged, ?_, rfl, rfl⟩)
    simp [Install.claudeMdOps, given, merges]
  | @agentsMd content given nonempty =>
    refine Or.inr (Or.inr ⟨create site.agentsMd content, ?_, rfl, rfl⟩)
    simp only [Install.agentsMdOps, given, if_neg nonempty]
    simp
  | settings =>
    refine Or.inr (Or.inr ⟨⟨site.settings, .mergeJson, i.mergedSettings (disk site.settings)⟩,
      ?_, rfl, rfl⟩)
    simp [Install.settingsOps]
  | @agent a known takes =>
    refine Or.inr (Or.inr ⟨create _ a.text, ?_, rfl, rfl⟩)
    have op := List.mem_map_of_mem (f := fun a : AgentFile => create (site.agents ++ a.rel) a.text)
      (List.mem_filter.mpr ⟨known, takes⟩)
    simp only [Install.agentOps, List.mem_append]
    tauto
  | @projectReviewer a known takes =>
    refine Or.inr (Or.inr ⟨create _ a.text, ?_, rfl, rfl⟩)
    have op := List.mem_map_of_mem
      (f := fun a : AgentFile => create (site.agents ++ [a.name]) a.text)
      (List.mem_filter.mpr ⟨known, takes⟩)
    simp only [Install.agentOps, List.mem_append]
    tauto
  | @gitHook f given =>
    refine Or.inr (Or.inr ⟨create _ f.text, ?_, rfl, rfl⟩)
    simp only [Install.gitHookOps, given]
    simp
  | @version v mode given =>
    refine Or.inr (Or.inr ⟨create site.installedVersion (pyStrip v ++ "\n"), ?_, rfl, rfl⟩)
    simp only [Install.versionOps, mode, given]
    simp

theorem recorded_or_deleted (listed : Listed (manifest.getD []) p)
    (clean : ∀ e ∈ manifest.getD [], e.passed = false) (given : p ≠ []) (there : disk p ≠ none)
    (renewed : Renewed i site disk p) :
    (∃ op ∈ plan i site disk manifest, op.records = true ∧ op.target = p) ∨
      ((∃ op ∈ plan i site disk manifest, op.op = .delete ∧ op.target = p) ∧
        ∀ op ∈ plan i site disk manifest, op.target = p → op.writes = false) := by
  have recorded {op : FileOp} (member : op ∈ i.collected site disk manifest)
      (records : op.records = true) :
      op ∈ plan i site disk manifest := by
    refine mem_plan.mpr ⟨member, fun delete => ?_⟩
    rw [FileOp.records, delete.1] at records
    cases records
  by_cases written : ∃ op ∈ i.collected site disk manifest, op.writes = true ∧ op.target = p
  · obtain ⟨op, member, writes, same⟩ := written
    have records := FileOp.records_of_writes writes
    exact Or.inl ⟨op, recorded member records, records, same⟩
  · have deleted (member : (⟨p, .delete, ""⟩ : FileOp) ∈ i.collected site disk manifest) :
        (∃ op ∈ plan i site disk manifest, op.op = .delete ∧ op.target = p) ∧
          ∀ op ∈ plan i site disk manifest, op.target = p → op.writes = false := by
      refine ⟨⟨_, mem_plan.mpr ⟨member, fun both => written both.2⟩, rfl, rfl⟩, ?_⟩
      intro op member same
      rw [← Bool.not_eq_true]
      exact fun writes => written ⟨op, (mem_plan.mp member).1, writes, same⟩
    obtain ⟨e, member, same, -⟩ := listed
    have fresh := clean e member
    obtain under | ⟨mode, under⟩ | now := written_of_renewed manifest renewed
    · have unsynced : p ∉ (i.skillOps site).map (·.target) := by
        intro synced
        obtain ⟨op, synced, target⟩ := List.mem_map.mp synced
        exact written ⟨op, by simp [Install.collected, synced],
          writes_of_mem_skillOps synced, target⟩
      have orphan : (⟨p, .delete, ""⟩ : FileOp) ∈ i.orphanOps site (manifest.getD []) := by
        subst same
        exact List.mem_map.mpr ⟨e, List.mem_filter.mpr
          ⟨member, decide_eq_true ⟨given, by rw [fresh]; rfl, unsynced, under⟩⟩, rfl⟩
      exact Or.inr (deleted (by simp [Install.collected, orphan]))
    · obtain ⟨op, found, target, fate⟩ := staleHookOp_eq_some i site there
      have stale : op ∈ i.staleHookOps site disk (manifest.getD []) := by
        subst same
        refine List.mem_filterMap.mpr ⟨e.path, ?_, found⟩
        rw [List.mem_reverse, List.mem_dedup, List.mem_reverse]
        exact List.mem_map.mpr ⟨e, List.mem_filter.mpr
          ⟨member, decide_eq_true ⟨given, by rw [fresh]; rfl, under⟩⟩, rfl⟩
      have known : op ∈ i.collected site disk manifest := by
        simp [Install.collected, Install.hookOps, mode, stale]
      rcases fate with records | purge
      · exact Or.inl ⟨op, recorded known records, records, target⟩
      · exact Or.inr (deleted (purge ▸ known))
    · exact absurd now written

end Plan

/-- No file that a run created under the root and that is still there is forgotten. -/
def Root.Remembers (site : Site) (r : Root) : Prop :=
  ∀ p ∈ r.created, isParent site.configRoot p = true → r.disk p ≠ none →
    Listed (r.manifest.getD []) p

/-- The next run has a place for every such file. -/
def Root.Renews (site : Site) (r : Root) (i : Install) : Prop :=
  ∀ p ∈ r.created, isParent site.configRoot p = true → r.disk p ≠ none → Renewed i site r.disk p

def Root.Own (r : Root) : Prop := r.created ≠ [] → ∀ e ∈ r.manifest.getD [], e.passed = false

section Install

variable {site : Site} {r : Root} {i : Install} {p : Path}

theorem install_own : (r.install site i).Own :=
  fun _ => Work.run_passed (plan i site r.disk r.manifest) (w := ⟨r.disk, [], r.created⟩) nofun

theorem listed_work : Listed (r.work site i).files p ↔
    ∃ op ∈ plan i site r.disk r.manifest, op.records = true ∧ op.target = p := by
  rw [Root.work, Work.run_listed]
  exact or_iff_right fun ⟨_, member, _⟩ => nomatch member

theorem work_disk_of_other
    (other : ∀ op ∈ plan i site r.disk r.manifest, op.target = p →
      op.op ≠ .delete ∧ op.writes = false) :
    (r.work site i).disk p = r.disk p := by
  rw [Root.work, Work.run_disk_of_other _ other]

theorem work_disk_of_gone (gone : r.disk p = none)
    (other : ∀ op ∈ plan i site r.disk r.manifest, op.target = p → op.writes = false) :
    (r.work site i).disk p = none := by
  rw [Root.work, Work.run_disk_of_gone _ _ other]
  exact gone

theorem work_disk_of_deleted (deleted : ∃ op ∈ plan i site r.disk r.manifest, op.op = .delete ∧
    op.target = p)
    (other : ∀ op ∈ plan i site r.disk r.manifest, op.target = p → op.writes = false) :
    (r.work site i).disk p = none := by
  obtain ⟨op, member, delete, rfl⟩ := deleted
  rw [Root.work, Work.run_disk_of_deleted _ member delete other]

theorem work_created (created : p ∈ (r.work site i).created) :
    p ∈ r.created ∨ ∃ op ∈ plan i site r.disk r.manifest, op.writes = true ∧ op.target = p := by
  rw [Root.work] at created
  exact Work.run_created _ p created

theorem created_work (created : p ∈ r.created) : p ∈ (r.work site i).created := by
  rw [Root.work]
  exact Work.run_created_mono _ created

theorem remembers_install : (r.install site i).Remembers site ↔ ∀ p ∈ (r.work site i).created,
    isParent site.configRoot p = true → (r.work site i).disk p ≠ none →
      Listed (r.work site i).files p := by
  simp only [Root.Remembers, Root.install, Option.getD_some]

theorem install_remembers_iff (own : r.Own) (remembers : r.Remembers site) :
    (r.install site i).Remembers site ↔ r.Renews site i := by
  rw [remembers_install]
  constructor
  · intro after p created inRoot there
    by_contra lost
    have untouched (op : FileOp) (member : op ∈ plan i site r.disk r.manifest)
        (same : op.target = p) :
        op.op = .skip := by
      by_contra touched
      exact lost (same ▸ renewed_of_mem_collected (mem_plan.mp member).1 touched)
    have still : (r.work site i).disk p = r.disk p := by
      apply work_disk_of_other
      intro op member same
      simp [FileOp.writes, untouched op member same]
    obtain ⟨op, member, records, same⟩ :=
      listed_work.mp (after p (created_work created) inRoot fun gone =>
        there (still.symm.trans gone))
    simp [FileOp.records, untouched op member same] at records
  · intro renews p created inRoot there
    apply listed_work.mpr
    by_contra unrecorded
    have unwritten (op : FileOp) (member : op ∈ plan i site r.disk r.manifest)
        (same : op.target = p) :
        op.writes = false := by
      rw [← Bool.not_eq_true]
      exact fun writes => unrecorded ⟨op, member, FileOp.records_of_writes writes, same⟩
    have before : p ∈ r.created := by
      rcases work_created created with before | ⟨op, member, writes, same⟩
      · exact before
      · rw [unwritten op member same] at writes
        cases writes
    have was : r.disk p ≠ none := fun gone => there (work_disk_of_gone gone unwritten)
    obtain kept | ⟨deleted, other⟩ := recorded_or_deleted (remembers p before inRoot was)
      (own (List.ne_nil_of_mem before)) (ne_nil_of_isParent inRoot) was (renews p before inRoot was)
    · exact unrecorded kept
    · exact there (work_disk_of_deleted deleted other)

end Install

def installing (site : Site) : Machine Root Install where
  step r i := some (r.install site i)

def Root.found (disk : Disk) (manifest : Option Manifest) : Root :=
  { disk := disk, manifest := manifest }

/-- The manifest forgets nothing throughout a sequence of runs exactly if each of them has a place
for every file that was created before. -/
theorem remembers_iff_renews (site : Site) (disk : Disk) (manifest : Option Manifest)
    (runs : List Install) :
    (∀ x ∈ (installing site).transitions (Root.found disk manifest) runs, x.after.Remembers site) ↔
      ∀ x ∈ (installing site).transitions (Root.found disk manifest) runs, x.before.Renews
        site x.label := by
  apply Machine.forall_after_iff_forall_guard (J := Root.Own)
  · intro r i t _ step
    rw [← Option.some.inj step]
    exact install_own
  · intro r i t own remembers step
    rw [← Option.some.inj step]
    exact install_remembers_iff own remembers
  · exact fun created => absurd rfl created
  · exact fun _ created => nomatch created

def oneReviewer (allowed : Option (List String)) : Install where
  skillDirs := []
  claudeMd := none
  agentsMd := none
  mergedSettings := fun text => text.getD ""
  canonicalAgents := [⟨⟨["review-scope.md"], "scope"⟩, "claude_code"⟩]
  projectReviewers := []
  allowed := allowed
  contract := none
  hookMode := .module
  hooks := ⟨[], fun _ => none, [], [], fun _ _ => ""⟩
  purgeRetiredHooks := false
  stub := fun _ => ""
  gitHook := none
  version := none

/-- After an install with another subset of the reviewers the first one's file stays, unlisted. -/
theorem reviewer_forgotten : ¬ ∀ (site : Site) (disk : Disk) (manifest : Option Manifest)
    (runs : List Install),
    ∀ x ∈ (installing site).transitions (Root.found disk manifest) runs,
      x.after.Remembers site := by
  intro never
  let site : Site := ⟨["root"], ["home"]⟩
  let first := (Root.found (fun _ => none) none).install site (oneReviewer none)
  let second := first.install site (oneReviewer (some ["review-tests.md"]))
  have remembers : second.Remembers site :=
    never site (fun _ => none) none [oneReviewer none, oneReviewer (some ["review-tests.md"])]
      ⟨first, _, second⟩
      (List.mem_cons_of_mem _ (List.mem_singleton_self _))
  obtain ⟨e, member, same, -⟩ := remembers ["root", "agents", "review-scope.md"] (by decide +kernel)
    (by decide) (by decide +kernel)
  have listed : second.manifest.getD [] = [⟨["root", "settings.json"], .unchanged⟩] := by
    decide +kernel
  rw [listed, List.mem_singleton] at member
  rw [member] at same
  exact absurd same (by decide)

end DreamStudio.Integrations
