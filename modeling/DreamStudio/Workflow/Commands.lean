import DreamStudio.Library.Machine
import DreamStudio.Workflow.Engine

namespace DreamStudio.Workflow

open Library

variable (evaluate : String → Run → Bool)

/-- A command on a run that is there. -/
inductive Act
  | update (r : Report) (emitted : Bool)
  | pause (nodeId gateName : String)
  | resume
  | abort (emitted : Bool)
  | next (yaml : Option YamlNodes) (budget : Bool) (now : String)
  | updateNode (r : Report)

structure Invocation where
  key : String
  act : Act

def Invocation.apply : Invocation → Runs → Runs
  | ⟨key, .update r emitted⟩ => cmdUpdate key r emitted
  | ⟨key, .pause nodeId gateName⟩ => cmdPause key nodeId gateName
  | ⟨key, .resume⟩ => cmdResume key
  | ⟨key, .abort emitted⟩ => cmdAbort key emitted
  | ⟨key, .next yaml budget now⟩ => cmdNext evaluate key yaml budget now
  | ⟨key, .updateNode r⟩ => updateNode key r

inductive Command
  | start (s : Start)
  | on (inv : Invocation)

def Command.apply : Command → Runs → Runs
  | .start s => cmdStart s
  | .on inv => inv.apply evaluate

def commands : Machine Runs Command where
  step runs command := some (command.apply evaluate runs)

section Outcome

def Run.mergeAll (writes : List Nodes) (wf : Run) : Run :=
  writes.foldl (fun wf records => wf.merge records) wf

theorem Run.mergeAll_eq (writes : List Nodes) (wf : Run) :
    wf.mergeAll writes =
      { wf with nodes := writes.foldl (fun nodes records => mergeNodes records nodes) wf.nodes } := by
  induction writes generalizing wf with
  | nil => rfl
  | cons records writes ih =>
    rw [Run.mergeAll, List.foldl_cons]
    exact ih (wf.merge records)

/-- What becomes of the run a command finds; `none` where it is pruned. -/
def Act.outcome : Act → Run → Option Run
  | .update r emitted, wf =>
    if r.nodeId ∉ wf.nodes.keys then some wf
    else if (wf.report r).status.terminal = true ∧ emitted = true then none
    else some (wf.report r)
  | .pause nodeId gateName, wf => some (wf.pause nodeId gateName)
  | .resume, wf => some wf.resume
  | .abort emitted, wf => if emitted then none else some wf.abort
  | .next yaml budget now, wf =>
    match wf.planNext evaluate yaml now with
    | none => some wf
    | some plan => some (wf.mergeAll (plan.writes budget now))
  | .updateNode r, wf => some (wf.report r)

/-- The file after a command that leaves one run's place to `run`. -/
def Settled (key : String) (run : Run → Option Run) (runs runs' : Runs) : Prop :=
  ∀ k, runs'.get k = if k = key then (runs.get key).bind run else runs.get k

theorem settled_none {key : String} {runs : Runs} (absent : runs.get key = none)
    (run : Run → Option Run) :
    Settled key run runs runs := by
  intro k
  split
  next same => rw [same, absent, Option.bind_none]
  next => rfl

theorem settled_keep {key : String} {runs : Runs} {wf : Run} (found : runs.get key = some wf)
    {run : Run → Option Run} (kept : run wf = some wf) : Settled key run runs runs := by
  intro k
  split
  next same => rw [same, found, Option.bind_some, kept]
  next => rfl

theorem settled_set {key : String} {runs : Runs} {wf wf' : Run} (found : runs.get key = some wf)
    {run : Run → Option Run} (becomes : run wf = some wf') :
    Settled key run runs (runs.set key wf') := by
  intro k
  rw [Dict.get_set, found, Option.bind_some, becomes]

theorem settled_put (key : String) (put : Run → Run) (runs : Runs) :
    Settled key (fun wf => some (put wf)) runs
    (match runs.get key with | none => runs | some wf => runs.set key (put wf)) := by
  cases found : runs.get key with
  | none => exact settled_none found _
  | some wf => exact settled_set found rfl

theorem settled_prune {key : String} {runs : Runs} {wf : Run} (found : runs.get key = some wf)
    {run : Run → Option Run} (gone : run wf = none) (wf' : Run) :
    Settled key run runs ((runs.set key wf').erase key) := by
  intro k
  rw [Dict.get_erase, found, Option.bind_some, gone]
  split
  · rfl
  next other => exact Dict.get_set_of_ne runs wf' other

theorem cmdUpdate_settled (key : String) (r : Report) (emitted : Bool) (runs : Runs) :
    Settled key ((Act.update r emitted).outcome evaluate) runs (cmdUpdate key r emitted runs) := by
  cases found : runs.get key with
  | none => simpa only [cmdUpdate, found] using settled_none found _
  | some wf =>
    by_cases known : r.nodeId ∈ wf.nodes.keys
    · by_cases pruned : (wf.report r).status.terminal = true ∧ emitted = true
      · have gone : cmdUpdate key r emitted runs = (runs.set key (wf.report r)).erase key := by
          simp [cmdUpdate, found, known, pruned, tryArchiveAndPrune]
        rw [gone]
        exact settled_prune found (by simp [Act.outcome, known, pruned]) _
      · have stays : cmdUpdate key r emitted runs = runs.set key (wf.report r) := by
          simp only [cmdUpdate, found, known, not_true_eq_false, if_false, tryArchiveAndPrune]
          split
          next terminal => exact if_neg fun spooled => pruned ⟨terminal, spooled⟩
          next => rfl
        rw [stays]
        exact settled_set found
          (by simp only [Act.outcome, known, not_true_eq_false, pruned, if_false])
    · have stays : cmdUpdate key r emitted runs = runs := by simp [cmdUpdate, found, known]
      rw [stays]
      exact settled_keep found (by simp [Act.outcome, known])

theorem writeRecords_settled (key : String) (records : Nodes) (runs : Runs) :
    Settled key (fun wf => some (wf.merge records)) runs (writeRecords key records runs) :=
  settled_put key (·.merge records) runs

theorem foldl_writeRecords_settled (key : String) (writes : List Nodes) (runs : Runs) :
    Settled key (fun wf => some (wf.mergeAll writes)) runs
      (writes.foldl (fun runs records => writeRecords key records runs) runs) := by
  induction writes generalizing runs with
  | nil =>
    cases found : runs.get key with
    | none => exact settled_none found _
    | some wf => exact settled_keep found rfl
  | cons records writes ih =>
    intro k
    rw [List.foldl_cons, ih, writeRecords_settled key records runs key,
      writeRecords_settled key records runs k]
    by_cases same : k = key
    · rw [if_pos same, if_pos same, if_pos rfl]
      cases runs.get key <;> rfl
    · rw [if_neg same, if_neg same, if_neg same]

theorem cmdNext_settled (key : String) (yaml : Option YamlNodes) (budget : Bool) (now : String)
    (runs : Runs) :
    Settled key ((Act.next yaml budget now).outcome evaluate) runs
      (cmdNext evaluate key yaml budget now runs) := by
  cases found : runs.get key with
  | none => simpa only [cmdNext, found, Option.bind_none] using settled_none found _
  | some wf =>
    cases planned : wf.planNext evaluate yaml now with
    | none =>
      simp only [cmdNext, found, Option.bind_some, planned]
      exact settled_keep found (by simp only [Act.outcome, planned])
    | some plan =>
      simp only [cmdNext, found, Option.bind_some, planned]
      intro k
      rw [foldl_writeRecords_settled, found, Option.bind_some, Option.bind_some]
      simp only [Act.outcome, planned]

theorem Invocation.apply_settled (inv : Invocation) (runs : Runs) :
    Settled inv.key (inv.act.outcome evaluate) runs (inv.apply evaluate runs) := by
  obtain ⟨key, act⟩ := inv
  cases act with
  | update r emitted => exact cmdUpdate_settled evaluate key r emitted runs
  | pause nodeId gateName => exact settled_put key (·.pause nodeId gateName) runs
  | resume => exact settled_put key (·.resume) runs
  | abort emitted =>
    cases found : runs.get key with
    | none => simpa only [Invocation.apply, cmdAbort, found] using settled_none found _
    | some wf =>
      simp only [Invocation.apply, cmdAbort, found, tryArchiveAndPrune]
      cases emitted with
      | true => exact settled_prune found rfl _
      | false => exact settled_set found rfl
  | next yaml budget now => exact cmdNext_settled evaluate key yaml budget now runs
  | updateNode r => exact settled_put key (·.report r) runs

end Outcome

end DreamStudio.Workflow
