import DreamStudio.Library.Interleave
import DreamStudio.Workflow.Commands
import Mathlib.Data.List.FinRange

namespace DreamStudio.Workflow

open Library Threads

variable (evaluate : String → Run → Bool)

/-- How far an invocation is. Only `cmd_next` has places between its first and its last step: behind
its unlocked read with a plan, and between its two locked sections. -/
inductive Place
  | waiting
  | decided (plan : Plan)
  | halfway (last : Nodes)
  | done
  deriving DecidableEq

def Place.after : List Nodes → Place
  | [] => .done
  | last :: _ => .halfway last

def Invocation.advance (inv : Invocation) : Place → Runs → Option (Place × Runs)
  | .waiting, runs =>
    match inv.act with
    | .next yaml budget now =>
      match (runs.get inv.key).bind (·.planNext evaluate yaml now) with
      | none => some (.done, runs)
      | some plan => some (if plan.writes budget now = [] then .done else .decided plan, runs)
    | _ => some (.done, inv.apply evaluate runs)
  | .decided plan, runs =>
    match inv.act with
    | .next _ budget now =>
      match plan.writes budget now with
      | [] => none
      | first :: rest => some (.after rest, writeRecords inv.key first runs)
    | _ => none
  | .halfway last, runs => some (.done, writeRecords inv.key last runs)
  | .done, _ => none

section Interleaved

variable {n : Nat} (invs : Fin n → Invocation)

abbrev Interleaved (n : Nat) := Threads (Fin n) Place Runs

def waiting (runs : Runs) : Interleaved n := ⟨fun _ => .waiting, runs⟩

def steps : Machine (Interleaved n) (Fin n) := interleaving fun i => (invs i).advance evaluate

def inOrder (order : List (Fin n)) (runs : Runs) : Runs :=
  serial (fun i => (invs i).apply evaluate) order runs

def nodeStatus (runs : Runs) (key id : String) : Option NodeStatus :=
  (runs.get key).bind fun wf => (wf.nodes.get id).map (·.status)

/-- The places from which the serial run has the whole invocation: a `cmd_next` taken early has it
from its read on, every other from its first section under the lock. -/
def Place.took (early : Bool) : Place → Prop
  | .waiting => False
  | .decided _ => early = true
  | .halfway _ | .done => True

variable (early : Fin n → Bool)

def owed (c : Interleaved n) (i : Fin n) : List Nodes :=
  match c.place i, (invs i).act with
  | .decided plan, .next _ budget now => if early i then plan.writes budget now else []
  | .halfway last, _ => [last]
  | _, _ => []

def Decides (c : Interleaved n) (i : Fin n) : Prop :=
  c.place i = .waiting ∧ ∃ yaml budget now plan, (invs i).act = .next yaml budget now ∧
    (c.shared.get (invs i).key).bind (·.planNext evaluate yaml now) = some plan ∧
      plan.writes budget now ≠ []

def Act.Commutes (act : Act) (writes : List Nodes) (wf : Run) : Prop :=
  act.outcome evaluate (wf.mergeAll writes) = (act.outcome evaluate wf).map (·.mergeAll writes)

/-- What a step needs. `current`: a plan not taken early is carried out on a run for which
`cmd_next` would still make it. `alone`: while another invocation owes records to the run, the step
only reads for a later plan, or commutes with these records. -/
structure Timely (c : Interleaved n) (i : Fin n) : Prop where
  current : early i = false → ∀ plan yaml budget now wf, c.place i = .decided plan →
    (invs i).act = .next yaml budget now → c.shared.get (invs i).key = some wf →
    wf.planNext evaluate yaml now = some plan
  alone : ∀ j, j ≠ i → (invs j).key = (invs i).key → owed invs early c j ≠ [] →
    c.place i = .waiting ∧
    (Decides evaluate invs c i → early i = false) ∧
    (¬Decides evaluate invs c i → ∀ wf, c.shared.get (invs i).key = some wf →
      (invs i).act.Commutes evaluate (owed invs early c j) wf)

/-- The file is the serial one, but for what is owed to it; to each run by one invocation at
most. -/
structure Follows (c : Interleaved n) (s : Runs) : Prop where
  quiet : ∀ k, (∀ i, (invs i).key = k → owed invs early c i = []) → s.get k = c.shared.get k
  owing : ∀ i, owed invs early c i ≠ [] →
    s.get (invs i).key = (c.shared.get (invs i).key).map (·.mergeAll (owed invs early c i))
  sole : ∀ i j, owed invs early c i ≠ [] → owed invs early c j ≠ [] →
    (invs i).key = (invs j).key → i = j

variable {invs early}

theorem owed_of_ne {c : Interleaved n} {i j : Fin n} (other : j ≠ i) (p : Place) (t : Runs) :
    owed invs early ⟨Function.update c.place i p, t⟩ j = owed invs early c j := by
  simp only [owed, Function.update_of_ne other]

theorem owed_update (c : Interleaved n) (i : Fin n) (p : Place) (t : Runs) :
    owed invs early ⟨Function.update c.place i p, t⟩ i = owed invs early ⟨fun _ => p, t⟩ i := by
  simp only [owed, Function.update_self]

theorem Follows.get_lone {c : Interleaved n} {s : Runs}
    (follows : Follows invs early c s) {i : Fin n}
    (lone : ∀ j, j ≠ i → (invs j).key = (invs i).key → owed invs early c j = [])
    (own : owed invs early c i = []) :
    s.get (invs i).key = c.shared.get (invs i).key := by
  refine follows.quiet _ fun j same => ?_
  by_cases here : j = i
  · exact here ▸ own
  · exact lone j here same

/-- A step of one invocation is judged on its own run: `here` when nobody else owes anything to it,
`there` when another invocation does. -/
theorem Follows.step {c : Interleaved n} {s s' t : Runs} (follows : Follows invs early c s)
    {i : Fin n} {p : Place} {o : List Nodes} (owes : owed invs early ⟨fun _ => p, t⟩ i = o)
    (file : ∀ k, k ≠ (invs i).key → t.get k = c.shared.get k)
    (serial : ∀ k, k ≠ (invs i).key → s'.get k = s.get k)
    (lone : o ≠ [] → ∀ j, j ≠ i → (invs j).key = (invs i).key → owed invs early c j = [])
    (here : (∀ j, j ≠ i → (invs j).key = (invs i).key → owed invs early c j = []) →
      s'.get (invs i).key = (t.get (invs i).key).map (·.mergeAll o))
    (there : ∀ j, j ≠ i → (invs j).key = (invs i).key → owed invs early c j ≠ [] →
      s'.get (invs i).key = (t.get (invs i).key).map (·.mergeAll (owed invs early c j))) :
    Follows invs early ⟨Function.update c.place i p, t⟩ s' where
  quiet k none := by
    by_cases own : k = (invs i).key
    · subst own
      have mine := none i rfl
      rw [owed_update, owes] at mine
      rw [here fun j other same => owed_of_ne other p t ▸ none j same, mine]
      exact Option.map_id' ..
    · rw [file k own, serial k own]
      refine follows.quiet k fun j same => ?_
      have other : j ≠ i := fun h => own (same.symm.trans (congrArg (fun i => (invs i).key) h))
      exact owed_of_ne other p t ▸ none j same
  owing j owing := by
    by_cases same : j = i
    · subst same
      rw [owed_update, owes] at owing ⊢
      exact here (lone owing)
    · rw [owed_of_ne same] at owing ⊢
      by_cases own : (invs j).key = (invs i).key
      · rw [own]
        exact there j same own owing
      · rw [file _ own, serial _ own]
        exact follows.owing j owing
  sole j k first second same := by
    by_cases hj : j = i
    · subst hj
      by_contra apart
      rw [owed_of_ne (Ne.symm apart)] at second
      rw [owed_update, owes] at first
      exact second (lone first k (Ne.symm apart) same.symm)
    · by_cases hk : k = i
      · subst hk
        rw [owed_of_ne hj] at first
        rw [owed_update, owes] at second
        exact absurd (lone second j hj same) first
      · rw [owed_of_ne hj] at first
        rw [owed_of_ne hk] at second
        exact follows.sole j k first second same

theorem Follows.lone {c : Interleaved n} {s : Runs} (follows : Follows invs early c s) {i : Fin n}
    (owing : owed invs early c i ≠ []) :
    ∀ j, j ≠ i → (invs j).key = (invs i).key → owed invs early c j = [] := by
  intro j other same
  by_contra owing'
  exact other (follows.sole j i owing' owing same)

theorem Plan.length_writes (budget : Bool) (now : String) (plan : Plan) :
    (plan.writes budget now).length ≤ 2 := by
  rw [Plan.writes, List.length_append]
  split <;> split <;> simp

theorem writeRecords_get_of_ne {key k : String} (other : k ≠ key) (records : Nodes) (runs : Runs) :
    (writeRecords key records runs).get k = runs.get k :=
  (writeRecords_settled key records runs k).trans (if_neg other)

theorem writeRecords_get_mergeAll (key : String) (first : Nodes) (rest : List Nodes) (runs : Runs) :
    ((writeRecords key first runs).get key).map (·.mergeAll rest) =
      (runs.get key).map (·.mergeAll (first :: rest)) := by
  rw [writeRecords_settled key first runs key, if_pos rfl]
  cases runs.get key <;> rfl

theorem Invocation.apply_get_self (inv : Invocation) (runs : Runs) :
    (inv.apply evaluate runs).get inv.key = (runs.get inv.key).bind (inv.act.outcome evaluate) :=
  (inv.apply_settled evaluate runs inv.key).trans (if_pos rfl)

theorem Invocation.apply_get_of_ne (inv : Invocation) (runs : Runs) {k : String}
    (other : k ≠ inv.key) :
    (inv.apply evaluate runs).get k = runs.get k :=
  (inv.apply_settled evaluate runs k).trans (if_neg other)

theorem Act.outcome_next {yaml : Option YamlNodes} {budget : Bool} {now : String}
    {wf : Run} {plan : Plan} (planned : wf.planNext evaluate yaml now = some plan) :
    (Act.next yaml budget now).outcome evaluate wf =
      some (wf.mergeAll (plan.writes budget now)) := by
  simp only [Act.outcome, planned]

/-- A plan that is current is all that `cmd_next` does. -/
theorem bind_outcome_next {run : Option Run} {yaml : Option YamlNodes} {budget : Bool}
    {now : String} {plan : Plan}
    (current : ∀ wf, run = some wf → wf.planNext evaluate yaml now = some plan) :
    run.bind ((Act.next yaml budget now).outcome evaluate) =
      run.map (·.mergeAll (plan.writes budget now)) := by
  cases run with
  | none => rfl
  | some wf => exact Act.outcome_next evaluate (current wf rfl)

theorem bind_outcome_planned {run : Option Run} {yaml : Option YamlNodes} {budget : Bool}
    {now : String} {plan : Plan}
    (planned : run.bind (·.planNext evaluate yaml now) = some plan) :
    run.bind ((Act.next yaml budget now).outcome evaluate) =
      run.map (·.mergeAll (plan.writes budget now)) := by
  apply bind_outcome_next evaluate
  intro wf found
  rwa [found, Option.bind_some] at planned

theorem Follows.whole {c : Interleaved n} {s t : Runs}
    (follows : Follows invs early c s) {i : Fin n} (timely : Timely evaluate invs early c i)
    (start : c.place i = .waiting) (plain : ¬Decides evaluate invs c i)
    (file : ∀ k, k ≠ (invs i).key → t.get k = c.shared.get k)
    (same : t.get (invs i).key = (c.shared.get (invs i).key).bind ((invs i).act.outcome evaluate)) :
    Follows invs early ⟨Function.update c.place i .done, t⟩ ((invs i).apply evaluate s) := by
  have own : owed invs early c i = [] := by simp [owed, start]
  refine follows.step (o := []) rfl file (fun k other => (invs i).apply_get_of_ne evaluate s other)
    (fun h => absurd rfl h) (fun lone => ?_) fun j other key owing => ?_
  · rw [Invocation.apply_get_self, follows.get_lone lone own, same]
    exact (Option.map_id' ..).symm
  · have commutes := (timely.alone j other key owing).2.2 plain
    have serial := follows.owing j owing
    rw [key] at serial
    rw [Invocation.apply_get_self, same, serial]
    cases found : c.shared.get (invs i).key with
    | none => rfl
    | some wf => exact commutes wf found

theorem Follows.linear_whole {c : Interleaved n} {s t : Runs}
    (follows : Follows invs early c s) {i : Fin n} (timely : Timely evaluate invs early c i)
    (start : c.place i = .waiting) (plain : ¬Decides evaluate invs c i)
    (file : ∀ k, k ≠ (invs i).key → t.get k = c.shared.get k)
    (same : t.get (invs i).key = (c.shared.get (invs i).key).bind ((invs i).act.outcome evaluate)) :
    Linear (fun i => (invs i).apply evaluate) (fun i => Place.took (early i))
      (Follows invs early) i c ⟨Function.update c.place i .done, t⟩ s := by
  simp only [Linear, Function.update_self, start]
  exact .inr ⟨id, trivial, follows.whole evaluate timely start plain file same⟩

/-- A plan that is made is the operation where it is taken early, and nothing yet where it is
not. -/
theorem Follows.linear_plan {c : Interleaved n} {s : Runs} {i : Fin n} {yaml : Option YamlNodes}
    {budget : Bool} {now : String} {plan : Plan} (follows : Follows invs early c s)
    (timely : Timely evaluate invs early c i) (here : c.place i = .waiting)
    (act : (invs i).act = .next yaml budget now)
    (planned : (c.shared.get (invs i).key).bind (·.planNext evaluate yaml now) = some plan)
    (writes : plan.writes budget now ≠ []) :
    Linear (fun i => (invs i).apply evaluate) (fun i => Place.took (early i))
      (Follows invs early) i c ⟨Function.update c.place i (.decided plan), c.shared⟩ s := by
  have own : owed invs early c i = [] := by simp [owed, here]
  simp only [Linear, Function.update_self, here]
  cases turn : early i with
  | false =>
    refine .inl ⟨by simp [Place.took], ?_⟩
    refine follows.step (o := []) (by simp [owed, act, turn]) (fun _ _ => rfl) (fun _ _ => rfl)
      (fun h => absurd rfl h) (fun lone => ?_) fun j other key owing => ?_
    · rw [follows.get_lone lone own]
      exact (Option.map_id' ..).symm
    · exact key ▸ follows.owing j owing
  | true =>
    have lone (j : Fin n) (other : j ≠ i) (key : (invs j).key = (invs i).key) :
        owed invs early c j = [] := by
      by_contra owing
      have late := (timely.alone j other key owing).2.1
        ⟨here, yaml, budget, now, plan, act, planned, writes⟩
      cases turn.symm.trans late
    refine .inr ⟨id, rfl, ?_⟩
    refine follows.step (o := plan.writes budget now) (by simp [owed, act, turn]) (fun _ _ => rfl)
      (fun k other => (invs i).apply_get_of_ne evaluate s other) (fun _ => lone) (fun _ => ?_)
      fun j other key owing => absurd (lone j other key) owing
    rw [Invocation.apply_get_self, follows.get_lone lone own, act,
      bind_outcome_planned evaluate planned]

/-- The first write of a plan is the operation where it was not taken early. -/
theorem Follows.linear_decided {c : Interleaved n} {s : Runs} {i : Fin n}
    {yaml : Option YamlNodes} {budget : Bool} {now : String} {plan : Plan} {first : Nodes}
    {rest : List Nodes} (follows : Follows invs early c s)
    (timely : Timely evaluate invs early c i) (here : c.place i = .decided plan)
    (act : (invs i).act = .next yaml budget now)
    (writes : plan.writes budget now = first :: rest) :
    Linear (fun i => (invs i).apply evaluate) (fun i => Place.took (early i))
      (Follows invs early) i c
      ⟨Function.update c.place i (.after rest), writeRecords (invs i).key first c.shared⟩ s := by
  have others (k : String) (other : k ≠ (invs i).key) :
      (writeRecords (invs i).key first c.shared).get k = c.shared.get k :=
    writeRecords_get_of_ne other first _
  have left : owed invs early ⟨fun _ => .after rest, writeRecords (invs i).key first c.shared⟩ i =
      rest := by
    cases rest with
    | nil => rfl
    | cons last more =>
      have short := plan.length_writes budget now
      rw [writes] at short
      obtain rfl : more = [] := List.eq_nil_of_length_eq_zero (by simpa using short)
      rfl
  have took (turn : Bool) : (Place.after rest).took turn := by cases rest <;> trivial
  simp only [Linear, Function.update_self, here]
  cases turn : early i with
  | true =>
    have own : owed invs early c i = first :: rest := by simp [owed, here, act, turn, writes]
    have owing : owed invs early c i ≠ [] := own ▸ List.cons_ne_nil _ _
    refine .inl ⟨iff_of_true (took _) rfl, ?_⟩
    refine follows.step left others (fun _ _ => rfl) (fun _ => follows.lone owing) (fun _ => ?_)
      fun j other key owing' => absurd (follows.lone owing j other key) owing'
    rw [follows.owing i owing, own, writeRecords_get_mergeAll]
  | false =>
    have own : owed invs early c i = [] := by simp [owed, here, act, turn]
    have lone (j : Fin n) (other : j ≠ i) (key : (invs j).key = (invs i).key) :
        owed invs early c j = [] := by
      by_contra owing
      cases here.symm.trans (timely.alone j other key owing).1
    refine .inr ⟨Bool.false_ne_true, took _, ?_⟩
    refine follows.step left others (fun k other => (invs i).apply_get_of_ne evaluate s other)
      (fun _ => lone) (fun _ => ?_) fun j other key owing => absurd (lone j other key) owing
    rw [Invocation.apply_get_self, follows.get_lone lone own, writeRecords_get_mergeAll, act,
      ← writes]
    exact bind_outcome_next evaluate fun wf found => timely.current turn plan yaml budget now wf
      here act found

/-- The second write is behind the operation. -/
theorem Follows.linear_halfway {c : Interleaved n} {s : Runs} {i : Fin n} {last : Nodes}
    (follows : Follows invs early c s) (here : c.place i = .halfway last) :
    Linear (fun i => (invs i).apply evaluate) (fun i => Place.took (early i))
      (Follows invs early) i c
      ⟨Function.update c.place i .done, writeRecords (invs i).key last c.shared⟩ s := by
  have own : owed invs early c i = [last] := by simp [owed, here]
  have owing : owed invs early c i ≠ [] := own ▸ List.cons_ne_nil _ _
  simp only [Linear, Function.update_self, here]
  refine .inl ⟨iff_of_true trivial trivial, ?_⟩
  refine follows.step (o := []) rfl (fun k other => writeRecords_get_of_ne other last _)
    (fun _ _ => rfl) (fun h => absurd rfl h) (fun _ => ?_) fun j other key owing' =>
      absurd (follows.lone owing j other key) owing'
  rw [follows.owing i owing, own, writeRecords_get_mergeAll]

theorem Follows.linear {c d : Interleaved n} {s : Runs} {i : Fin n}
    (follows : Follows invs early c s) (timely : Timely evaluate invs early c i)
    (step : move (fun i => (invs i).advance evaluate) c i = some d) :
    Linear (fun i => (invs i).apply evaluate) (fun i => Place.took (early i))
      (Follows invs early) i c d s := by
  obtain ⟨p, t, moved, rfl⟩ := move_eq_some step
  cases here : c.place i with
  | done => simp [Invocation.advance, here] at moved
  | halfway last =>
    simp only [here, Invocation.advance, Option.some.injEq, Prod.mk.injEq] at moved
    obtain ⟨rfl, rfl⟩ := moved
    exact follows.linear_halfway evaluate here
  | waiting =>
    cases act : (invs i).act with
    | next yaml budget now =>
      cases planned : (c.shared.get (invs i).key).bind (·.planNext evaluate yaml now) with
      | none =>
        simp only [here, Invocation.advance, act, planned, Option.some.injEq,
          Prod.mk.injEq] at moved
        obtain ⟨rfl, rfl⟩ := moved
        have plain : ¬Decides evaluate invs c i := by
          rintro ⟨-, yaml', budget', now', plan, act', planned', -⟩
          obtain ⟨rfl, rfl, rfl⟩ := Act.next.inj (act.symm.trans act')
          cases planned.symm.trans planned'
        refine follows.linear_whole evaluate timely here plain (fun _ _ => rfl) ?_
        cases found : c.shared.get (invs i).key with
        | none => rfl
        | some wf =>
          rw [found, Option.bind_some] at planned
          rw [act, Option.bind_some, Act.outcome, planned]
      | some plan =>
        simp only [here, Invocation.advance, act, planned, Option.some.injEq,
          Prod.mk.injEq] at moved
        obtain ⟨rfl, rfl⟩ := moved
        by_cases nothing : plan.writes budget now = []
        · rw [if_pos nothing]
          have plain : ¬Decides evaluate invs c i := by
            rintro ⟨-, yaml', budget', now', plan', act', planned', writes⟩
            obtain ⟨rfl, rfl, rfl⟩ := Act.next.inj (act.symm.trans act')
            obtain rfl := Option.some.inj (planned.symm.trans planned')
            exact writes nothing
          refine follows.linear_whole evaluate timely here plain (fun _ _ => rfl) ?_
          rw [act, bind_outcome_planned evaluate planned, nothing]
          exact (Option.map_id' ..).symm
        · rw [if_neg nothing]
          exact follows.linear_plan evaluate timely here act planned nothing
    | update | pause | resume | abort | updateNode =>
      simp only [here, Invocation.advance, act, Option.some.injEq, Prod.mk.injEq] at moved
      obtain ⟨rfl, rfl⟩ := moved
      have plain : ¬Decides evaluate invs c i := by
        rintro ⟨-, yaml, budget, now, plan, act', -⟩
        cases act.symm.trans act'
      exact follows.linear_whole evaluate timely here plain
        (fun k other => (invs i).apply_get_of_ne evaluate _ other)
        ((invs i).apply_get_self evaluate _)
  | decided plan =>
    cases act : (invs i).act with
    | next yaml budget now =>
      cases writes : plan.writes budget now with
      | nil => simp [here, Invocation.advance, act, writes] at moved
      | cons first rest =>
        simp only [here, Invocation.advance, act, writes, Option.some.injEq, Prod.mk.injEq] at moved
        obtain ⟨rfl, rfl⟩ := moved
        exact follows.linear_decided evaluate timely here act writes
    | update | pause | resume | abort | updateNode => simp [here, Invocation.advance, act] at moved

theorem waiting_follows (runs : Runs) : Follows invs early (waiting runs) runs where
  quiet _ _ := rfl
  owing _ owing := absurd rfl owing
  sole _ _ owing := absurd rfl owing

variable (invs early)

/-- Once all invocations are done, the node statuses are those of a serial order of them, when each
`cmd_next` is taken early or late and every step is timely. -/
theorem nodeStatus_serial {runs : Runs} {schedule : List (Fin n)} {c : Interleaved n}
    (reach : (steps evaluate invs).run (waiting runs) schedule = some c)
    (all_done : ∀ i, c.place i = .done)
    (timely : ∀ x ∈ (steps evaluate invs).transitions (waiting runs) schedule,
      Timely evaluate invs early x.before x.label) :
    ∃ order : List (Fin n), order.Perm (List.finRange n) ∧
      ∀ key id, nodeStatus c.shared key id =
        nodeStatus (inOrder evaluate invs order runs) key id := by
  obtain ⟨order, nodup, members, follows⟩ := exists_serial (fun i => (invs i).apply evaluate)
    (fun i => Place.took (early i)) (Follows invs early) (Timely evaluate invs early)
    (fun c i d s follows ok step => follows.linear evaluate ok step) (fun _ => id)
      (waiting_follows runs) reach timely
  have took (i : Fin n) : (c.place i).took (early i) := by
    rw [all_done i]
    trivial
  refine ⟨order, (List.perm_ext_iff_of_nodup nodup (List.nodup_finRange n)).mpr fun i =>
    ?_, fun key id => ?_⟩
  · exact iff_of_true ((members i).mpr (took i)) (List.mem_finRange i)
  · have paid (i : Fin n) (_ : (invs i).key = key) : owed invs early c i = [] := by
      simp [owed, all_done i]
    rw [nodeStatus, nodeStatus, inOrder, follows.quiet key paid]

def Act.interrupts : Act → Bool
  | .pause .. | .resume => true
  | _ => false

theorem Act.commutes_of_interrupts {act : Act} (interrupts : act.interrupts = true)
    (writes : List Nodes) (wf : Run) : act.Commutes evaluate writes wf := by
  cases act with
  | pause nodeId gateName =>
    simp only [Act.Commutes, Act.outcome, Run.mergeAll_eq, Option.map_some]
    rfl
  | resume =>
    simp only [Act.Commutes, Act.outcome, Run.mergeAll_eq, Option.map_some, Run.resume]
    cases wf.gatesPending <;> rfl
  | next | update | abort | updateNode => cases interrupts

end Interleaved

section Examples

def oneNode : Runs :=
  [("build-7",
    { workflow := "build", started := "t0", yamlPath := "build.yaml", nodes := [("b", {})] })]

def skipping : Act := .next (some [("b", { condition := some "{{b.output}}" })]) false "t1"

def falsely (_ : String) (_ : Run) : Bool := false

def pausing : Fin 2 → Invocation
  | 0 => ⟨"build-7", skipping⟩
  | 1 => ⟨"build-7", .pause "b" "review"⟩

theorem pausing_timely (x : Machine.Transition (Interleaved 2) (Fin 2))
    (member : x ∈ (steps falsely pausing).transitions (waiting oneNode) [0, 1, 0]) :
    Timely falsely pausing (fun _ => true) x.before x.label := by
  have places : ((steps falsely pausing).transitions (waiting oneNode) [0, 1, 0]).all (fun x =>
      decide (x.before.place 1 = .waiting ∨ (x.label = 0 ∧ x.before.place 1 = .done))) = true := by
        decide +kernel
  have place := of_decide_eq_true (List.all_eq_true.mp places x member)
  refine ⟨nofun, fun j other key owing => ?_⟩
  have two : ∀ i j : Fin 2, j ≠ i → (i = 0 ∧ j = 1) ∨ (i = 1 ∧ j = 0) := by decide
  rcases two x.label j other with ⟨-, rfl⟩ | ⟨second, rfl⟩
  · refine absurd ?_ owing
    rcases place with here | ⟨-, here⟩ <;> simp only [owed, here]
  · have here : x.before.place 1 = .waiting :=
      place.resolve_right fun h => nomatch second.symm.trans h.1
    rw [second]
    refine ⟨here, ?_, fun _ wf _ => Act.commutes_of_interrupts falsely rfl _ wf⟩
    rintro ⟨-, yaml, budget, now, plan, act, -⟩
    cases act

theorem nodeStatus_serial_pausing : ∃ c, (steps falsely pausing).run (waiting oneNode)
    [0, 1, 0] = some c ∧
    ∃ order : List (Fin 2), order.Perm (List.finRange 2) ∧
      ∀ key id, nodeStatus c.shared key id =
        nodeStatus (inOrder falsely pausing order oneNode) key id := by
  have reached : ((steps falsely pausing).run (waiting oneNode) [0, 1, 0]).map
      (fun c => (c.place 0, c.place 1)) =
      some (.done, .done) := by decide +kernel
  obtain ⟨c, reach, places⟩ := Option.map_eq_some_iff.mp reached
  obtain ⟨first, second⟩ := Prod.mk.inj places
  have all_done : ∀ i, c.place i = .done := Fin.forall_fin_two.mpr ⟨first, second⟩
  exact ⟨c, reach, nodeStatus_serial falsely pausing (fun _ => true) reach all_done pausing_timely⟩

def starting : Fin 2 → Invocation
  | 0 => ⟨"build-7", skipping⟩
  | 1 => ⟨"build-7", .update { nodeId := "b", status := .running, now := "t2" } false⟩

/-- The node is set running between the read and the write of a `cmd_next`, and is skipped all the
same. -/
theorem update_lost : ¬∀ (evaluate : String → Run → Bool) (n : Nat)
    (invs : Fin n → Invocation) (runs : Runs) (schedule : List (Fin n))
    (c : Interleaved n), (steps evaluate invs).run (waiting runs) schedule = some c →
    (∀ i, c.place i = .done) → ∃ order : List (Fin n), order.Perm (List.finRange n) ∧
      ∀ key id, nodeStatus c.shared key id =
        nodeStatus (inOrder evaluate invs order runs) key id := by
  intro all
  have reached : ((steps falsely starting).run (waiting oneNode) [0, 1, 0]).map (fun c =>
      (c.place 0, c.place 1, nodeStatus c.shared "build-7" "b")) =
        some (.done, .done, some .skipped) := by
    decide +kernel
  obtain ⟨c, reach, places⟩ := Option.map_eq_some_iff.mp reached
  obtain ⟨first, second, skipped⟩ : c.place 0 = .done ∧ c.place 1 = .done ∧
      nodeStatus c.shared "build-7" "b" = some .skipped := by
        simpa only [Prod.mk.injEq] using places
  obtain ⟨order, perm, status⟩ :=
    all falsely 2 starting oneNode [0, 1, 0] c reach (Fin.forall_fin_two.mpr ⟨first, second⟩)
  obtain ⟨a, b, rfl⟩ := List.length_eq_two.mp (perm.length_eq.trans (List.length_finRange ..))
  have serial : ∀ a b : Fin 2, [a, b].Perm (List.finRange 2) →
      nodeStatus (inOrder falsely starting [a, b] oneNode) "build-7" "b" = some .running := by
        decide +kernel
  cases skipped.symm.trans ((status "build-7" "b").trans (serial a b perm))

end Examples

end DreamStudio.Workflow
