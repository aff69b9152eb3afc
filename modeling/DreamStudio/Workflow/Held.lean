import DreamStudio.Workflow.Commands

namespace DreamStudio.Workflow

open Library

section Sound

/-- A completed run has no other nodes than completed and skipped ones, and none waits for a
gate. -/
structure Run.Sound (wf : Run) : Prop where
  finished : wf.status = .completed → ∀ item ∈ wf.nodes, item.2.status = .completed ∨
    item.2.status = .skipped
  held : wf.gatesPending ≠ [] → wf.status ≠ .completed ∧ wf.status ≠ .completedWithFailures

def Sound (runs : Runs) : Prop := ∀ key wf, runs.get key = some wf → wf.Sound

/-- An aborted run that is still there afterwards is aborted. -/
def Final (runs runs' : Runs) : Prop :=
  ∀ key wf wf', runs.get key = some wf → runs'.get key = some wf' → wf.status = .aborted →
    wf'.status = .aborted

def Kept (runs runs' : Runs) : Prop := Sound runs' ∧ Final runs runs'

theorem Sound.nil : Sound [] := by
  intro key wf found
  cases found

theorem Sound.kept {runs : Runs} (sound : Sound runs) : Kept runs runs := by
  refine ⟨sound, fun key wf wf' before after aborted => ?_⟩
  obtain rfl := Option.some.inj (before.symm.trans after)
  exact aborted

theorem Sound.kept_iff {runs runs' : Runs} (sound : Sound runs) {key : String}
    (others : ∀ k, k ≠ key → runs'.get k = runs.get k) :
    Kept runs runs' ↔ ∀ wf', runs'.get key = some wf' →
      wf'.Sound ∧ ∀ wf, runs.get key = some wf → wf.status = .aborted → wf'.status = .aborted := by
  constructor
  · rintro ⟨after, final⟩ wf' found
    exact ⟨after key wf' found, fun wf before => final key wf wf' before found⟩
  · intro here
    refine ⟨fun k wf found => ?_, fun k wf wf' before after => ?_⟩
    · by_cases same : k = key
      · exact (here wf (same ▸ found)).1
      · exact sound k wf (others k same ▸ found)
    · by_cases same : k = key
      · subst same
        exact (here wf' after).2 wf before
      · exact sound.kept.2 k wf wf' before (others k same ▸ after)

end Sound

section Report

theorem NodeStatus.done_iff {status : NodeStatus} :
    status.done = true ↔ status = .completed ∨ status = .skipped := by
  cases status <;> decide

theorem allDone_iff {nodes : Nodes} :
    allDone nodes = true ↔ ∀ item ∈ nodes, item.2.status = .completed ∨
      item.2.status = .skipped := by
  simp only [allDone, List.all_eq_true, NodeStatus.done_iff]

theorem allThrough_of_allDone {nodes : Nodes} (done : allDone nodes = true) :
    allThrough nodes = true := by
  refine List.all_eq_true.mpr fun item member => ?_
  rcases allDone_iff.mp done item member with h | h <;> rw [h] <;> rfl

theorem settle_of_not_through {nodes : Nodes} (open' : allThrough nodes = false) (status : Status) :
    settle nodes status = status := by
  have undone : ¬allDone nodes = true :=
    fun done => nomatch open'.symm.trans (allThrough_of_allDone done)
  simp [settle, undone, open']

theorem settle_of_through {nodes : Nodes} (through : allThrough nodes = true) (status : Status) :
    settle nodes status = .completed ∧ allDone nodes = true ∨
      settle nodes status = .completedWithFailures := by
  cases done : allDone nodes with
  | true => exact .inl ⟨by simp [settle, done], rfl⟩
  | false => exact .inr (by simp [settle, done, through])

/-- Where the report leaves all nodes through, no gate waits and nobody aborted the run; elsewhere
the run is not marked completed. -/
def Report.Fits (r : Report) (wf : Run) : Prop :=
  if allThrough (r.nodes wf.nodes) then wf.gatesPending = [] ∧
    wf.status ≠ .aborted else wf.status ≠ .completed

theorem Report.fits_iff (r : Report) {wf : Run} (sound : wf.Sound) :
    (wf.report r).Sound ∧ (wf.status = .aborted → (wf.report r).status = .aborted) ↔ r.Fits wf := by
  cases through : allThrough (r.nodes wf.nodes) with
  | true =>
    rw [Report.Fits, if_pos through]
    constructor
    · rintro ⟨⟨-, held⟩, final⟩
      rcases settle_of_through through wf.status with ⟨settled, -⟩ | settled
      · exact ⟨not_not.mp fun gates => (held gates).1 settled, fun aborted =>
          nomatch settled.symm.trans (final aborted)⟩
      · exact ⟨not_not.mp fun gates => (held gates).2 settled, fun aborted =>
          nomatch settled.symm.trans (final aborted)⟩
    · rintro ⟨gates, live⟩
      refine ⟨⟨fun completed => ?_, fun waiting => absurd gates waiting⟩, fun aborted =>
        absurd aborted live⟩
      rcases settle_of_through through wf.status with ⟨-, done⟩ | settled
      · exact allDone_iff.mp done
      · cases settled.symm.trans completed
  | false =>
    rw [Report.Fits, if_neg (by simp [through])]
    have status : (wf.report r).status = wf.status := settle_of_not_through through wf.status
    rw [status]
    constructor
    · rintro ⟨⟨finished, -⟩, -⟩ completed
      have through' := allThrough_of_allDone (allDone_iff.mpr (finished (status.trans completed)))
      cases through.symm.trans through'
    · intro open'
      refine ⟨⟨fun completed => absurd (status.symm.trans completed) open', fun gates => ?_⟩,
        fun aborted => aborted⟩
      rw [status]
      exact sound.held gates

end Report

section Guard

variable (evaluate : String → Run → Bool)

def Act.Fits (wf : Run) : Act → Prop
  | .update r emitted => r.nodeId ∈ wf.nodes.keys →
      (emitted = true ∧ (allThrough (r.nodes wf.nodes) = true ∨ wf.status.terminal = true)) ∨
        r.Fits wf
  | .pause _ _ | .resume => wf.status ≠ .aborted
  | .abort _ | .next _ _ _ => True
  | .updateNode r => r.Fits wf

def Command.Guarded (runs : Runs) : Command → Prop
  | .start s => s.nodeIds ≠ [] → findResumable runs s.name = none →
      ∀ wf, runs.get s.key = some wf → wf.status ≠ .aborted
  | .on inv => ∀ wf, runs.get inv.key = some wf → inv.act.Fits wf

theorem report_terminal (r : Report) (wf : Run) :
    (wf.report r).status.terminal = true ↔ allThrough (r.nodes wf.nodes) = true ∨
      wf.status.terminal = true := by
  cases through : allThrough (r.nodes wf.nodes) with
  | true =>
    refine iff_of_true ?_ (.inl rfl)
    change (settle (r.nodes wf.nodes) wf.status).terminal = true
    rcases settle_of_through through wf.status with ⟨settled, -⟩ | settled <;> rw [settled] <;> rfl
  | false =>
    have status : (wf.report r).status = wf.status := settle_of_not_through through wf.status
    rw [status]
    simp

theorem Run.resume_status (wf : Run) : wf.resume.status = .running := by
  rw [Run.resume]
  split <;> rfl

/-- A run set to `running` or `paused` was not aborted, if no abort is undone. -/
theorem live_iff {wf wf' : Run} (live : wf'.status = .paused ∨ wf'.status = .running) :
    wf'.Sound ∧ (wf.status = .aborted → wf'.status = .aborted) ↔ wf.status ≠ .aborted := by
  constructor
  · rintro ⟨-, final⟩ aborted
    rcases live with h | h <;> cases h.symm.trans (final aborted)
  · intro live'
    refine ⟨⟨fun completed => ?_, fun _ => ?_⟩, fun aborted => absurd aborted live'⟩
    · rcases live with h | h <;> cases h.symm.trans completed
    · rcases live with h | h <;> rw [h] <;> exact ⟨nofun, nofun⟩

theorem Run.planNext_running {yaml : Option YamlNodes} {now : String} {wf : Run} {plan : Plan}
    (planned : wf.planNext evaluate yaml now = some plan) : wf.status = .running := by
  cases yaml with
  | none => cases planned
  | some yaml =>
    rw [Run.planNext] at planned
    split at planned
    · cases planned
    next live =>
      rw [not_or] at live
      cases status : wf.status with
      | running => rfl
      | paused => exact absurd status live.1
      | completed | completedWithFailures | aborted => exact absurd (by rw [status]; rfl) live.2

theorem Act.fits_iff (act : Act) {wf : Run} (sound : wf.Sound) :
    (∀ wf', act.outcome evaluate wf = some wf' →
      wf'.Sound ∧ (wf.status = .aborted → wf'.status = .aborted)) ↔ act.Fits wf := by
  cases act with
  | update r emitted =>
    rw [Act.outcome, Act.Fits]
    by_cases known : r.nodeId ∈ wf.nodes.keys
    · rw [if_neg (not_not.mpr known), ← report_terminal, ← r.fits_iff sound,
        @and_comm (emitted = true)]
      by_cases pruned : (wf.report r).status.terminal = true ∧ emitted = true
      · simp [pruned, known]
      · simp [pruned, known]
    · simp [known, sound]
  | pause nodeId gateName =>
    rw [Act.Fits, ← @live_iff wf (wf.pause nodeId gateName) (.inl rfl)]
    simp [Act.outcome]
  | resume =>
    rw [Act.Fits, ← @live_iff wf wf.resume (.inr wf.resume_status)]
    simp [Act.outcome]
  | abort emitted =>
    refine iff_of_true (fun wf' after => ?_) trivial
    rw [Act.outcome] at after
    split at after
    · cases after
    · obtain rfl := Option.some.inj after
      exact ⟨⟨by simp [Run.abort], fun _ => by simp [Run.abort]⟩, fun _ => rfl⟩
  | next yaml budget now =>
    refine iff_of_true (fun wf' after => ?_) trivial
    rw [Act.outcome] at after
    cases planned : wf.planNext evaluate yaml now with
    | none =>
      simp only [planned, Option.some.injEq] at after
      subst after
      exact ⟨sound, id⟩
    | some plan =>
      have running := Run.planNext_running evaluate planned
      simp only [planned, Option.some.injEq, Run.mergeAll_eq] at after
      subst after
      refine ⟨⟨fun completed => ?_, sound.held⟩, id⟩
      cases running.symm.trans completed
  | updateNode r =>
    rw [Act.Fits, ← r.fits_iff sound]
    simp [Act.outcome]

theorem cmdStart_kept_iff {runs : Runs} (sound : Sound runs) (s : Start) :
    Kept runs (cmdStart s runs) ↔ (Command.start s).Guarded runs := by
  rw [cmdStart]
  split
  next idle =>
    refine iff_of_true sound.kept fun nodes fresh => ?_
    rw [fresh] at idle
    exact absurd idle (by simp [nodes])
  next begins =>
    simp only [not_or, Bool.not_eq_true, Option.isSome_eq_false_iff,
      Option.isNone_iff_eq_none] at begins
    have fresh : s.run.Sound := ⟨nofun, fun waiting => absurd rfl waiting⟩
    rw [sound.kept_iff fun k other => Dict.get_set_of_ne runs s.run other, Dict.get_set_self]
    constructor
    · intro here _ _ wf found aborted
      cases (here s.run rfl).2 wf found aborted
    · rintro guard _ ⟨⟩
      exact ⟨fresh, fun wf found aborted => absurd aborted (guard begins.1 begins.2 wf found)⟩

theorem Command.kept_iff {runs : Runs} (sound : Sound runs) (command : Command) :
    Kept runs (command.apply evaluate runs) ↔ command.Guarded runs := by
  cases command with
  | start s => exact cmdStart_kept_iff sound s
  | on inv =>
    have settled := inv.apply_settled evaluate runs
    rw [Command.apply, sound.kept_iff fun k other => (settled k).trans (if_neg other),
      settled inv.key, if_pos rfl]
    cases found : runs.get inv.key with
    | none => simp [Command.Guarded, found]
    | some wf =>
      simp only [Command.Guarded, found, Option.bind_some, Option.some.injEq, forall_eq',
        ← inv.act.fits_iff evaluate (sound inv.key wf found)]

/-- From no run at all: every state is sound and no aborted run is revived exactly as long as every
command finds what it needs. -/
theorem commands_kept_iff (cs : List Command) :
    (∀ x ∈ (commands evaluate).transitions [] cs, Sound x.after ∧ Final x.before x.after) ↔
      ∀ x ∈ (commands evaluate).transitions [] cs, x.label.Guarded x.before :=
  (commands evaluate).forall_steps_iff_of_exact (J := fun _ => True) (P := Sound) (Q := Kept)
    (fun _ _ _ _ _ => trivial)
    (fun _ command _ _ sound step => Option.some.inj step ▸ command.kept_iff evaluate sound)
    (fun _ command _ _ sound step guard =>
      (Option.some.inj step ▸ (command.kept_iff evaluate sound).mpr guard : Kept _ _).1)
    trivial Sound.nil cs

def gatedCommands : List Command :=
  [.start { name := "build", yamlPath := "build.yaml", nodeIds := ["a"], seconds := 7, now := "t0" },
    .on ⟨"build-7", .pause "a" "review"⟩,
    .on ⟨"build-7", .updateNode { nodeId := "a", status := .completed, now := "t1" }⟩]

/-- The report completes the run, its gate still pending. -/
theorem gate_passed_by : ¬∀ (evaluate : String → Run → Bool) (cs : List Command),
    ∀ x ∈ (commands evaluate).transitions [] cs, Sound x.after ∧ Final x.before x.after := by
  intro all
  have reached : ((commands fun _ _ => true).transitions [] gatedCommands).any
      (fun x => (x.after.get "build-7").any fun wf => wf.gatesPending = ["review"] ∧
        wf.status = .completed) = true := by
    decide +kernel
  obtain ⟨x, member, found⟩ := List.any_eq_true.mp reached
  obtain ⟨wf, found, gates⟩ := (Option.any_eq_true _ _).mp found
  obtain ⟨gates, completed⟩ := of_decide_eq_true gates
  have sound := (all _ gatedCommands x member).1 "build-7" wf found
  exact (sound.held (by simp [gates])).1 completed

end Guard

end DreamStudio.Workflow
