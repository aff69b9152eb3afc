import DreamStudio.Hooks.EditGate

namespace DreamStudio.Hooks

open Library WorkOrders

/-- What a gate makes of one candidate, whatever the tier and the session. -/
inductive Verdict
  | passes
  | admits
  | docstore
  | unowned
  | broken
  deriving DecidableEq

def Verdict.stops : Verdict → Bool
  | .passes | .admits => false
  | .docstore | .unowned | .broken => true

/-- The first verdict that stops the run decides; without one, an edit that was admitted does. -/
def answer (tier : Tier) (verdicts : List Verdict) : Decision :=
  match verdicts.find? (·.stops) with
  | some .docstore => if tier = .enforce then .deny else .observe
  | some .broken => .error
  | some _ => .observe
  | none => if .admits ∈ verdicts then .allow else .noop

theorem answer_eq {tier : Tier} {vs vs' : List Verdict} {v : Verdict}
    (found : vs.find? (·.stops) = some v) (found' : vs'.find? (·.stops) = some v) :
    answer tier vs = answer tier vs' := by
  unfold answer
  rw [found, found']
  cases v with
  | docstore => rfl
  | broken => rfl
  | unowned => rfl
  | passes => cases List.find?_some found
  | admits => cases List.find?_some found

def Mark.denies : Mark → Bool
  | .denial _ => true
  | _ => false

namespace Gate

variable (g : Gate)

def verdict (cand : String) : Verdict :=
  match g.locate cand with
  | .nowhere => .passes
  | .unavailable => .passes
  | .raised => .broken
  | .inside t s =>
    if s.kind = .docstoreOnly then .docstore
    else if g.workOrderAt t s = none ∧ s.kind = .source then .unowned
    else .admits

/-- The session file behind a candidate that does not stop the run. -/
def recorded (session : Option String) (f : SessionFile) (c : String × Moment) : SessionFile :=
  match g.locate c.1 with
  | .inside t s =>
    session.elim f fun id =>
      g.recordEdit id (editArgs c.1 s.kind s.project (g.workOrderAt t s)) c.2 f
  | _ => f

def noted (session : Option String) (f : SessionFile) (c : String × Moment) : List Mark :=
  match g.locate c.1 with
  | .unavailable => g.unavailableMarks
  | .inside t s => g.advisories c.1 s (g.workOrderAt t s) session c.2 f
  | _ => []

def onward (session : Option String) (w : GateRun) (c : String × Moment) : GateRun where
  decision := if g.verdict c.1 = .admits then .allow else w.decision
  marks := w.marks ++ g.noted session w.file c
  file := g.recorded session w.file c

def stopped (tier : Tier) (session : Option String) (w : GateRun) (c : String × Moment) : GateRun :=
  match g.locate c.1 with
  | .inside t s =>
    if s.kind = .docstoreOnly then w.refuse tier "zero_disk_planning" zeroDiskReason session
    else w.refuse tier "authority_source_edit" (unownedReason s.project (g.nextAt t s)) session
  | _ => { w with decision := .error }

section Turns

variable {g} {tier : Tier} {session : Option String} {w : GateRun} {c : String × Moment}

theorem consider_onward (on : (g.verdict c.1).stops = false) :
    g.consider tier session w c = .ok (g.onward session w c) := by
  unfold consider onward noted recorded
  cases at_ : g.locate c.1 with
  | nowhere => simp [verdict, at_]
  | unavailable => simp [verdict, at_]
  | raised =>
    rw [verdict, at_] at on
    cases on
  | inside t s =>
    have verdict_eq : g.verdict c.1 = if s.kind = .docstoreOnly then .docstore
        else if g.workOrderAt t s = none ∧ s.kind = .source then .unowned else .admits := by
      rw [verdict, at_]
    by_cases planning : s.kind = .docstoreOnly
    · rw [verdict_eq, if_pos planning] at on
      cases on
    · by_cases unowned : g.workOrderAt t s = none ∧ s.kind = .source
      · rw [verdict_eq, if_neg planning, if_pos unowned] at on
        cases on
      · rw [if_neg planning, if_neg unowned] at verdict_eq
        rw [if_pos verdict_eq]
        simp only [if_neg planning, if_neg unowned]

theorem consider_stopped (off : (g.verdict c.1).stops = true) :
    g.consider tier session w c = .error (g.stopped tier session w c) := by
  unfold verdict at off
  unfold consider stopped
  cases at_ : g.locate c.1 with
  | nowhere =>
    rw [at_] at off
    cases off
  | unavailable =>
    rw [at_] at off
    cases off
  | raised => rfl
  | inside t s =>
    simp only [at_] at off ⊢
    by_cases planning : s.kind = .docstoreOnly
    · rw [if_pos planning, if_pos planning]
    · rw [if_neg planning] at off
      rw [if_neg planning, if_neg planning]
      by_cases unowned : g.workOrderAt t s = none ∧ s.kind = .source
      · rw [if_pos unowned]
      · rw [if_neg unowned] at off
        cases off

theorem foldlM_consider (cs : List (String × Moment)) :
    cs.foldlM (g.consider tier session) w =
      (cs.find? fun c => (g.verdict c.1).stops).elim (.ok (cs.foldl (g.onward session) w))
        fun c => .error (g.stopped tier session
          ((cs.takeWhile fun c => !(g.verdict c.1).stops).foldl (g.onward session) w) c) :=
  foldlM_of_stops (fun _ _ => consider_onward) (fun _ _ => consider_stopped) cs w

theorem file_onward (cs : List (String × Moment)) :
    (cs.foldl (g.onward session) w).file = cs.foldl (g.recorded session) w.file := by
  induction cs generalizing w with
  | nil => rfl
  | cons c cs ih => exact ih

theorem decision_onward (cs : List (String × Moment)) :
    (cs.foldl (g.onward session) w).decision =
      if .admits ∈ cs.map (g.verdict ·.1) then .allow else w.decision := by
  induction cs generalizing w with
  | nil => rfl
  | cons c cs ih =>
    rw [List.foldl_cons, ih, List.map_cons]
    by_cases admits : g.verdict c.1 = .admits
    · simp [onward, admits]
    · apply if_congr
      · rw [List.mem_cons, or_iff_right (Ne.symm admits)]
      · rfl
      · exact if_neg admits

/-- No mark for an authority that is missing is a denial. -/
def Quiet (g : Gate) : Prop := ∀ m ∈ g.unavailableMarks, m.denies = false

theorem denies_postureAdvisory {cand : String} {m : Moment} {f : SessionFile} {mark : Mark}
    (mem : mark ∈ postureAdvisory cand session m f) : mark.denies = false := by
  unfold postureAdvisory at mem
  split at mem
  · cases mem
  · split at mem
    · rw [List.mem_singleton.mp mem]
      rfl
    · cases mem

theorem denies_noted (quiet : g.Quiet) {f : SessionFile} {mark : Mark}
    (mem : mark ∈ g.noted session f c) : mark.denies = false := by
  unfold noted at mem
  cases at_ : g.locate c.1 with
  | nowhere => simp [at_] at mem
  | raised => simp [at_] at mem
  | unavailable =>
    simp only [at_] at mem
    exact quiet mark mem
  | inside t s =>
    simp only [at_, advisories] at mem
    split at mem
    · cases List.mem_append.mp mem with
      | inl stray =>
        obtain ⟨stray, -, rfl⟩ := Option.map_eq_some_iff.mp (Option.mem_toList.mp stray)
        rfl
      | inr posture => exact denies_postureAdvisory posture
    · cases mem

theorem denials_onward (quiet : g.Quiet) (cs : List (String × Moment)) :
    (cs.foldl (g.onward session) w).marks.filter Mark.denies = w.marks.filter Mark.denies := by
  induction cs generalizing w with
  | nil => rfl
  | cons c cs ih =>
    have none : (g.noted session w.file c).filter Mark.denies = [] := by
      rw [List.filter_eq_nil_iff]
      intro mark mem
      simp [denies_noted quiet mem]
    rw [List.foldl_cons, ih]
    simp only [onward, List.filter_append, none, List.append_nil]

theorem applyTier_source (tier : Tier) (reason : String) (session : Option String) :
    (applyTier tier "authority_source_edit" reason session).2 = .observe ∧
      (applyTier tier "authority_source_edit" reason session).1.filter Mark.denies = [] := by
  unfold applyTier observeOnly
  cases tier <;> simp [Mark.denies]

theorem applyTier_planning (tier : Tier) (reason : String) (session : Option String) :
    (applyTier tier "zero_disk_planning" reason session).2 =
        (if tier = .enforce then .deny else .observe) ∧
      (applyTier tier "zero_disk_planning" reason session).1.filter Mark.denies =
        if tier = .enforce then [.denial reason] else [] := by
  unfold applyTier observeOnly
  cases tier <;> simp [Mark.denies]

theorem stopped_spec (tier : Tier) (session : Option String) (w : GateRun)
    (off : (g.verdict c.1).stops = true) :
    (g.stopped tier session w c).decision = answer tier [g.verdict c.1] ∧
      (g.stopped tier session w c).marks.filter Mark.denies = w.marks.filter Mark.denies ++
        (if (g.stopped tier session w c).decision = .deny then [.denial zeroDiskReason] else []) ∧
      (g.stopped tier session w c).file = w.file := by
  unfold answer
  rw [List.find?_cons, off]
  unfold verdict stopped at *
  cases at_ : g.locate c.1 with
  | nowhere =>
    rw [at_] at off
    cases off
  | unavailable =>
    rw [at_] at off
    cases off
  | raised => simp
  | inside t s =>
    simp only [at_] at off ⊢
    by_cases planning : s.kind = .docstoreOnly
    · obtain ⟨decision, denials⟩ := applyTier_planning tier zeroDiskReason session
      simp only [if_pos planning, GateRun.refuse, List.filter_append, decision, denials]
      cases tier <;> simp
    · rw [if_neg planning] at off
      by_cases unowned : g.workOrderAt t s = none ∧ s.kind = .source
      · obtain ⟨decision, denials⟩ := applyTier_source tier
          (unownedReason s.project (g.nextAt t s)) session
        simp only [if_neg planning, if_pos unowned, GateRun.refuse, List.filter_append, decision,
          denials]
        simp
      · rw [if_neg unowned] at off
        cases off

theorem turns_fst (moments : Nat → Moment) (cands : List String) :
    (turns moments cands).map (·.1) = cands := by
  simp [turns, List.map_map, Function.comp_def]

theorem verdicts_turns (moments : Nat → Moment) (cands : List String) :
    (turns moments cands).map (g.verdict ·.1) = cands.map g.verdict := by
  rw [← turns_fst moments cands, List.map_map, turns_fst]
  rfl

theorem find?_verdicts (moments : Nat → Moment) (cands : List String) :
    (cands.map g.verdict).find? (·.stops) =
      ((turns moments cands).find? fun c => (g.verdict c.1).stops).map (g.verdict ·.1) := by
  rw [← verdicts_turns moments, List.find?_map]
  rfl

theorem enforce_paths (quiet : g.Quiet) (tier : Tier) {call : ToolCall} {cands : List String}
    (targets : call.candidates g.extractWriteTargets = .paths cands) (moments : Nat → Moment)
    (f : SessionFile) :
    let run := (g.enforce tier call moments f).1
    run.decision = answer tier (cands.map g.verdict) ∧
      run.marks.filter Mark.denies =
        (if run.decision = .deny then [.denial zeroDiskReason] else []) ∧
      run.file = ((turns moments cands).takeWhile fun c => !(g.verdict c.1).stops).foldl
        (g.recorded (given call.sessionId)) f := by
  simp only [enforce, targets, foldlM_consider]
  have first := find?_verdicts (g := g) moments cands
  cases found : (turns moments cands).find? fun c => (g.verdict c.1).stops with
  | none =>
    rw [found, Option.map_none] at first
    have all : ((turns moments cands).takeWhile fun c => !(g.verdict c.1).stops) =
        turns moments cands := by
      rw [List.takeWhile_eq_self_iff]
      intro c mem
      simpa using List.find?_eq_none.mp found c mem
    simp only [Option.elim_none, ended, answer, first, all]
    rw [decision_onward, denials_onward quiet, file_onward, verdicts_turns]
    refine ⟨rfl, ?_, rfl⟩
    split <;> rfl
  | some c =>
    rw [found, Option.map_some] at first
    have off : (g.verdict c.1).stops = true :=
      List.find?_some (p := fun c : String × Moment => (g.verdict c.1).stops)
      found
    simp only [Option.elim_some, ended]
    generalize ran : (((turns moments cands).takeWhile fun c => !(g.verdict c.1).stops).foldl
      (g.onward (given call.sessionId)) { file := f }) = w
    obtain ⟨decision, denials, file⟩ := stopped_spec tier (given call.sessionId) w off
    refine ⟨?_, ?_, ?_⟩
    · exact decision.trans (answer_eq (List.find?_cons_of_pos off) first)
    · rw [denials, ← ran, denials_onward quiet]
      rfl
    · rw [file, ← ran, file_onward]

end Turns

end Gate

/-- A mark as another tier leaves it: the refusal it tells of is told at that tier. -/
def Mark.toldAt (tier : Tier) (session : Option String) : Mark → List Mark
  | .denial reason => (applyTier tier "zero_disk_planning" reason session).1
  | .observation rule reason told session =>
    if rule ∈ observeOnly then (applyTier tier rule reason session).1
    else [.observation rule reason told session]
  | .bypass hookName rule detail session => [.bypass hookName rule detail session]
  | .warning reason => [.warning reason]
  | .execution decision status session => [.execution decision status session]

def GateRun.toldAt (tier : Tier) (session : Option String) (w : GateRun) : GateRun where
  decision :=
    if w.decision = .deny then (applyTier tier "zero_disk_planning" zeroDiskReason session).2
    else w.decision
  marks := w.marks.flatMap (Mark.toldAt tier session)
  file := w.file

namespace Gate

variable {g : Gate} {tier : Tier} {session : Option String} {w : GateRun} {c : String × Moment}

/-- The marks that no tier changes. -/
def Settled (m : Mark) : Prop := ∀ tier session, m.toldAt tier session = [m]

theorem flatMap_toldAt {marks : List Mark} (settled : ∀ m ∈ marks, Settled m) :
    marks.flatMap (Mark.toldAt tier session) = marks := by
  induction marks with
  | nil => rfl
  | cons m marks ih =>
    rw [List.forall_mem_cons] at settled
    rw [List.flatMap_cons, settled.1, ih settled.2]
    rfl

theorem settled_advisory {rule reason told : String} {session : Option String}
    (other : rule ∉ observeOnly) : Settled (.observation rule reason told session) :=
  fun _ _ => if_neg other

theorem settled_postureAdvisory {cand : String} {m : Moment} {f : SessionFile} {mark : Mark}
    (mem : mark ∈ postureAdvisory cand session m f) : Settled mark := by
  unfold postureAdvisory at mem
  split at mem
  · cases mem
  · split at mem
    · rw [List.mem_singleton.mp mem]
      exact settled_advisory (by decide)
    · cases mem

theorem settled_advisories {s : Site} {wo : Option ActiveWorkOrder} {f : SessionFile} {mark : Mark}
    (mem : mark ∈ g.advisories c.1 s wo session c.2 f) : Settled mark := by
  unfold advisories at mem
  split at mem
  · cases List.mem_append.mp mem with
    | inl stray =>
      obtain ⟨stray, -, rfl⟩ := Option.map_eq_some_iff.mp (Option.mem_toList.mp stray)
      exact settled_advisory (by decide)
    | inr posture => exact settled_postureAdvisory posture
  · cases mem

theorem refuse_planning :
    (w.refuse .enforce "zero_disk_planning" zeroDiskReason session).toldAt tier session =
      (w.toldAt tier session).refuse tier "zero_disk_planning" zeroDiskReason session := by
  simp [GateRun.refuse, GateRun.toldAt, applyTier, observeOnly, Mark.toldAt]

theorem refuse_source {reason : String} :
    (w.refuse .enforce "authority_source_edit" reason session).toldAt tier session =
      (w.toldAt tier session).refuse tier "authority_source_edit" reason session := by
  cases tier <;> simp [GateRun.refuse, GateRun.toldAt, applyTier, observeOnly, Mark.toldAt]

theorem consider_toldAt (settled : ∀ m ∈ g.unavailableMarks, Settled m) :
    Related (fun v w : GateRun => w = v.toldAt tier session) (fun v w => w = v.toldAt tier session)
      (g.consider .enforce session w c) (g.consider tier session (w.toldAt tier session) c) := by
  unfold consider
  cases g.locate c.1 with
  | nowhere => exact .ok rfl
  | unavailable =>
    apply Related.ok
    simp [GateRun.toldAt, List.flatMap_append, flatMap_toldAt settled]
  | raised => exact .error rfl
  | inside t s =>
    by_cases planning : s.kind = .docstoreOnly
    · simp only [if_pos planning]
      exact .error refuse_planning.symm
    · simp only [if_neg planning]
      by_cases unowned : g.workOrderAt t s = none ∧ s.kind = .source
      · simp only [if_pos unowned]
        exact .error refuse_source.symm
      · simp only [if_neg unowned]
        apply Related.ok
        simp only [GateRun.toldAt, List.flatMap_append]
        rw [flatMap_toldAt fun m mem => settled_advisories mem]
        rfl

end Gate

theorem Hook.settled (env : GateEnv) (authority : Option HookAuthority) (h : Hook) :
    ∀ m ∈ (h.gate env authority).unavailableMarks, Gate.Settled m := by
  cases h with
  | python =>
    intro m mem
    rw [List.mem_singleton.mp mem]
    exact fun _ _ => rfl
  | native => exact List.forall_mem_nil _

/-- What a lower tier makes of a tool call is what the gate makes of it when it enforces, with each
refusal told at that tier: the same answer where nothing was denied, the same reasons, and the same
session. -/
theorem Hook.enforce_toldAt (env : GateEnv) (authority : Option HookAuthority) (h : Hook)
    (tier : Tier) (call : ToolCall) (moments : Nat → Moment) (f : SessionFile) :
    let g := h.gate env authority
    g.enforce tier call moments f =
      ((g.enforce .enforce call moments f).1.toldAt tier (given call.sessionId),
        (g.enforce .enforce call moments f).2) := by
  have settled := h.settled env authority
  generalize h.gate env authority = g at settled
  simp only [Gate.enforce]
  cases call.candidates g.extractWriteTargets with
  | nothing => rfl
  | inspected command hasWrite => cases hasWrite <;> rfl
  | paths cands =>
    let R (v w : GateRun) : Prop := w = v.toldAt tier (given call.sessionId)
    have turn (c : String × Moment) (v w : GateRun) (same : R v w) :
        Related R R (g.consider .enforce (given call.sessionId) v c)
          (g.consider tier (given call.sessionId) w c) := by
      rw [same]
      exact Gate.consider_toldAt settled
    have start : R { file := f } { file := f } := rfl
    have related := Related.foldlM (fun c (_ : c ∈ Gate.turns moments cands) => turn c) start
    exact congrArg (·, given call.sessionId) related.ended

theorem Hook.quiet (env : GateEnv) (authority : Option HookAuthority) (h : Hook) :
    (h.gate env authority).Quiet := by
  cases h <;> simp [Hook.gate, Enforcement.gate, Native.gate, Gate.Quiet, Mark.denies]

/-- The run over the candidates of a tool call: its answer is that of the first verdict that stops
it, it denies once at most, and only what belongs in the docstore, and the session has the edits
that were admitted before. -/
theorem Hook.enforce_answers (env : GateEnv) (authority : Option HookAuthority) (h : Hook)
    (tier : Tier) (call : ToolCall) (moments : Nat → Moment) (f : SessionFile) :
    let g := h.gate env authority
    let cands := (call.candidates g.extractWriteTargets).list
    let run := (g.enforce tier call moments f).1
    run.decision = answer tier (cands.map g.verdict) ∧
      run.marks.filter Mark.denies =
        (if run.decision = .deny then [.denial zeroDiskReason] else []) ∧
      run.file = ((Gate.turns moments cands).takeWhile fun c => !(g.verdict c.1).stops).foldl
        (g.recorded (given call.sessionId)) f := by
  have quiet := h.quiet env authority
  generalize h.gate env authority = g at quiet
  cases targets : call.candidates g.extractWriteTargets with
  | paths cands =>
    simp only [targets]
    exact Gate.enforce_paths quiet tier targets moments f
  | nothing =>
    simp only [Gate.enforce, targets]
    exact ⟨rfl, rfl, rfl⟩
  | inspected command hasWrite =>
    simp only [Gate.enforce, targets]
    refine ⟨rfl, ?_, rfl⟩
    cases hasWrite <;> rfl

end DreamStudio.Hooks
