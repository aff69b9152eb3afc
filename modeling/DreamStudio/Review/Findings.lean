import DreamStudio.Review.Trail

namespace DreamStudio.Review

open Library

/-- A reviewer's answers on a lane, each with its round. -/
def Ledger.lane (l : Ledger) (reviewer lane : String) : List (Nat × Entry) :=
  (entriesOf (l.history reviewer)).filter (·.2.lane = lane)

def Failed (code : Option Int) : Prop := ∃ n, code = some n ∧ n ≠ 0

/-- A command that failed in the image the finding was recorded in exits 0 in the image of the pass:
the finding's own, or a replacement run against the finding's image. -/
def Evidence (finding pass : Entry) : Prop :=
  match pass.resolutionRun with
  | some (.own command exitCode _ image) =>
    finding.answer.reproduction.map (·.command) = some command ∧
      Failed (finding.run.bind (·.exitCode)) ∧
      exitCode = some 0 ∧ pass.run.map (·.image) = some image
  | some (.replacement _ exitCodeBefore imageBefore exitCode image) =>
    finding.run.map (·.image) = some imageBefore ∧ Failed exitCodeBefore ∧
      exitCode = some 0 ∧ pass.run.map (·.image) = some image
  | none => False

/-- Every finding on a lane is followed by a pass with evidence against it. -/
def Settled (answers : List (Nat × Entry)) : Prop :=
  ∀ before finding later, answers = before ++ finding :: later → finding.2.verdict = .finding →
    ∃ pass ∈ later, pass.2.verdict = .pass ∧ Evidence finding.2 pass.2

/-- A lane on which no finding is reported open has every finding settled. -/
def NoLapse (l : Ledger) : Prop :=
  ∀ reviewer lane, (∀ s, (reviewer, s) ∈ openFindings l → s.lane ≠ lane) →
    Settled (l.lane reviewer lane)

section Lane

def unresolved (answers : List (Nat × Entry)) : List Entry :=
  answers.foldl
    (fun findings x =>
      match x.2.verdict with
      | .pass => []
      | .finding => findings ++ [x.2]
      | .cannotTell => findings)
    []

def Backed (answers : List (Nat × Entry)) : Prop :=
  ∀ before finding later, answers = before ++ finding :: later → finding.2.verdict = .finding →
    (∃ pass ∈ later, pass.2.verdict = .pass ∧ Evidence finding.2 pass.2) ∨
      ∀ x ∈ later, x.2.verdict ≠ .pass

variable {answers : List (Nat × Entry)} {x : Nat × Entry}

theorem unresolved_concat (answers : List (Nat × Entry)) (x : Nat × Entry) :
    unresolved (answers ++ [x]) =
      match x.2.verdict with
      | .pass => []
      | .finding => unresolved answers ++ [x.2]
      | .cannotTell => unresolved answers := by
  simp [unresolved, List.foldl_append]

theorem mem_unresolved_iff {finding : Entry} :
    finding ∈ unresolved answers ↔
      ∃ before n later, answers = before ++ (n, finding) :: later ∧ finding.verdict = .finding ∧
        ∀ x ∈ later, x.2.verdict ≠ .pass := by
  induction answers using List.reverseRecOn with
  | nil => simp [unresolved]
  | append_singleton answers x ih =>
    rw [unresolved_concat]
    have older : (∃ before n later, answers ++ [x] = before ++ (n, finding) :: later ∧
        finding.verdict = .finding ∧ ∀ x ∈ later, x.2.verdict ≠ .pass) ↔
        x.2.verdict ≠ .pass ∧ finding ∈ unresolved answers ∨
          x.2 = finding ∧ finding.verdict = .finding := by
      rw [ih]
      constructor
      · rintro ⟨before, n, later, split, found, after⟩
        rcases List.eq_nil_or_concat later with rfl | ⟨later, y, rfl⟩
        · obtain ⟨-, last⟩ := List.append_inj' split rfl
          cases List.singleton_inj.mp last
          exact Or.inr ⟨rfl, found⟩
        · have split' : answers ++ [x] = (before ++ (n, finding) :: later) ++ [y] := by
            simpa using split
          obtain ⟨rfl, last⟩ := List.append_inj' split' rfl
          cases List.singleton_inj.mp last
          refine Or.inl ⟨after x (by simp), before, n, later, rfl, found, ?_⟩
          exact fun z hz => after z (by simp [hz])
      · rintro (⟨open_, before, n, later, rfl, found, after⟩ | ⟨rfl, found⟩)
        · refine ⟨before, n, later ++ [x], by simp, found, ?_⟩
          intro z hz
          rcases List.mem_append.mp hz with hz | hz
          · exact after z hz
          · exact List.mem_singleton.mp hz ▸ open_
        · exact ⟨answers, x.1, [], rfl, found, by simp⟩
    rw [older]
    cases verdict : x.2.verdict with
    | pass =>
      simp only [List.not_mem_nil, ne_eq, not_true_eq_false, false_and, false_or,
        false_iff, not_and]
      rintro rfl
      simp [verdict]
    | finding =>
      simp only [List.mem_append, List.mem_singleton, ne_eq, reduceCtorEq,
        not_false_eq_true, true_and]
      refine or_congr_right ⟨fun h => ⟨h.symm, h ▸ verdict⟩, fun h => h.1.symm⟩
    | cannotTell =>
      simp only [ne_eq, reduceCtorEq, not_false_eq_true, true_and]
      refine ⟨Or.inl, fun h => h.resolve_right ?_⟩
      rintro ⟨rfl, found⟩
      rw [verdict] at found
      cases found

theorem standing_isFinding (lane : String) (entries : List (Nat × Entry)) :
    (standingOn lane entries).any (·.isFinding) = true ↔
      unresolved (entries.filter (·.2.lane = lane)) ≠ [] := by
  induction entries using List.reverseRecOn with
  | nil => simp [standingOn, unresolved]
  | append_singleton entries x ih =>
    by_cases here : x.2.lane = lane
    · rw [standingOn_concat entries here, List.filter_append,
        List.filter_cons_of_pos (by simpa using here), List.filter_nil, unresolved_concat,
        Option.any_some, advance_isFinding]
      cases verdict : x.2.verdict with
      | pass => simp
      | finding => simp
      | cannotTell => simpa using ih
    · rw [standingOn_append, List.filter_append, List.filter_cons_of_neg (by simpa using here)]
      simpa using ih

theorem backed_nil : Backed [] := by
  intro before finding later split
  simp at split

theorem backed_concat (backed : Backed answers)
    (evidence : x.2.verdict = .pass → ∀ finding ∈ unresolved answers, Evidence finding x.2) :
    Backed (answers ++ [x]) := by
  intro before finding later split found
  rcases List.eq_nil_or_concat later with rfl | ⟨later, y, rfl⟩
  · exact Or.inr (by simp)
  · have split' : answers ++ [x] = (before ++ finding :: later) ++ [y] := by simpa using split
    obtain ⟨rfl, last⟩ := List.append_inj' split' rfl
    cases List.singleton_inj.mp last
    rcases backed before finding later rfl found with ⟨pass, hpass, shown⟩ | open_
    · exact Or.inl ⟨pass, by simp [hpass], shown⟩
    · by_cases passes : x.2.verdict = .pass
      · have recorded : finding.2 ∈ unresolved (before ++ finding :: later) :=
          mem_unresolved_iff.mpr ⟨before, finding.1, later, rfl, found, open_⟩
        exact Or.inl ⟨x, by simp, passes, evidence passes _ recorded⟩
      · refine Or.inr fun z hz => ?_
        rw [List.concat_eq_append, List.mem_append, List.mem_singleton] at hz
        rcases hz with hz | rfl
        · exact open_ z hz
        · exact passes

theorem evidence_of_settled (settled : Settled (answers ++ [x])) :
    ∀ finding ∈ unresolved answers, Evidence finding x.2 := by
  intro finding recorded
  obtain ⟨before, n, later, rfl, found, open_⟩ := mem_unresolved_iff.mp recorded
  obtain ⟨pass, hpass, passes, shown⟩ :=
    settled before (n, finding) (later ++ [x]) (by simp) found
  rcases List.mem_append.mp hpass with hpass | hpass
  · exact absurd passes (open_ pass hpass)
  · exact List.mem_singleton.mp hpass ▸ shown

theorem settled_of_backed (backed : Backed answers) (none : unresolved answers = []) :
    Settled answers := by
  intro before finding later split found
  refine (backed before finding later split found).resolve_right fun open_ => ?_
  have recorded : finding.2 ∈ unresolved answers :=
    mem_unresolved_iff.mpr ⟨before, finding.1, later, split, found, open_⟩
  simp [none] at recorded

end Lane

theorem no_open_iff {l : Ledger} {reviewer lane : String} :
    (∀ s, (reviewer, s) ∈ openFindings l → s.lane ≠ lane) ↔
      unresolved (l.lane reviewer lane) = [] := by
  rw [← not_iff_not, ← ne_eq, Ledger.lane, ← standing_isFinding, Option.any_eq_true]
  push Not
  constructor
  · rintro ⟨s, found, rfl⟩
    obtain ⟨stands, finding⟩ := mem_openFindings_iff.mp found
    exact ⟨s, stands, finding⟩
  · rintro ⟨s, stands, finding⟩
    have here := standingOn_lane stands
    exact ⟨s, mem_openFindings_iff.mpr ⟨here.symm ▸ stands, finding⟩, here⟩

section Pass

variable {door : Door} {image : String} {prior : Standing} {answer : Answer} {finding entry : Entry}

/-- If `verify` lets a pass close the standing finding, it shows the given finding gone as well:
both have one command, which failed when the finding was recorded, or the image rebuilt is that of
the given finding. -/
def Covers (door : Door) (image : String) (prior : Standing) (answer : Answer) (finding : Entry) :
    Prop :=
  match answer.resolvesWith with
  | none =>
    let rerun := door.verify answer.lane .finding image (exitsZero prior.command)
    pyStrip prior.command ≠ "" → rerun.holds = true →
      finding.answer.reproduction.map (·.command) = some prior.command ∧
        Failed (finding.run.bind (·.exitCode)) ∧ rerun.Honest 0
  | some replacement =>
    ∀ sha rebuilt, afterColon prior.image = some sha →
      door.ensureImage answer.lane sha = .ok rebuilt →
      let now := door.verify answer.lane .replacement image (exitsZero replacement)
      let before := door.verify answer.lane .before rebuilt (exitsZero replacement)
      now.holds = true → before.holds = false → before.run.any (!·.timedOut) = true →
        finding.run.map (·.image) = some rebuilt ∧ now.Honest 0 ∧ before.Honest 0

theorem Verified.honest_iff_of_holds {v : Verified} {code : Int} (holds : v.holds = true) :
    v.Honest code ↔ v.run.bind (·.exitCode) = some code := by
  constructor
  · intro honest
    obtain ⟨run, ran, exited⟩ := honest.holds holds
    rw [ran, Option.bind_some, exited]
  · intro exited
    refine ⟨fun _ => Option.bind_eq_some_iff.mp exited, fun fails => ?_⟩
    rw [holds] at fails
    cases fails

theorem Verified.honest_iff_of_fails {v : Verified} {run : Run} (fails : v.holds = false)
    (ran : v.run = some run) (ended : run.timedOut = false) : v.Honest 0 ↔ Failed run.exitCode := by
  constructor
  · intro honest
    exact honest.fails fails run ran ended
  · intro failed
    refine ⟨fun holds => ?_, fun _ other same _ => ?_⟩
    · rw [fails] at holds
      cases holds
    · rw [ran] at same
      cases same
      exact failed

theorem checkReproduction_pass {run : Option RunRecord} (passes : answer.verdict = .pass)
    (h : checkReproduction door image answer = .ok run) : run.map (·.image) = some image := by
  unfold checkReproduction at h
  simp only [passes, Verdict.tested, Bool.not_true, Bool.false_eq_true, if_false] at h
  split at h
  · cases h
  · split at h
    · cases h
    · cases h
      rfl

theorem checkReproduction_holds {run : Option RunRecord} (passes : answer.verdict = .pass)
    (h : checkReproduction door image answer = .ok run) :
    ∃ reproduction, answer.reproduction = some reproduction ∧
      (door.verify answer.lane .reproduction image reproduction).holds = true := by
  unfold checkReproduction at h
  simp only [passes, Verdict.tested, Bool.not_true, Bool.false_eq_true, if_false] at h
  split at h
  · cases h
  next reproduction stated =>
    split at h
    · cases h
    next holds => exact ⟨reproduction, stated, by simpa using holds⟩

theorem resolve_refused {standing : Dict String Standing} {reproduction : Reproduction}
    {refusal : Refusal} (stated : answer.reproduction = some reproduction)
    (holds : (door.verify answer.lane .reproduction image reproduction).holds = true)
    (closes : findingToClose standing answer = some prior)
    (refused : verifyAnswer door image standing answer = .error refusal) :
    ∃ refusal, resolve door image prior answer = .error refusal := by
  cases resolved : resolve door image prior answer with
  | error refusal => exact ⟨refusal, rfl⟩
  | ok resolution =>
    exfalso
    unfold verifyAnswer checkReproduction at refused
    cases tested : answer.verdict.tested <;>
      simp [tested, stated, holds, closes, resolved, bind, Except.bind, pure,
        Except.pure] at refused

theorem evidence_iff_covers {resolution : Resolution} (ran : entry.run.map (·.image) = some image)
    (resolved : resolve door image prior answer = .ok resolution)
    (stored : entry.resolutionRun = some resolution) :
    Evidence finding entry ↔ Covers door image prior answer finding := by
  unfold resolve at resolved
  unfold Evidence Covers
  rw [stored]
  cases replaced : answer.resolvesWith with
  | none =>
    simp only [replaced, resolveByFinding] at resolved ⊢
    split at resolved
    · cases resolved
    next named =>
      split at resolved
      · cases resolved
      next holds =>
        have holds : (door.verify answer.lane .finding image (exitsZero prior.command)).holds =
            true := by
          simpa using holds
        cases resolved
        simp only [ran, and_true]
        rw [Verified.honest_iff_of_holds holds]
        exact ⟨fun h _ _ => h, fun h => h named holds⟩
  | some replacement =>
    simp only [replaced, resolveByReplacement] at resolved ⊢
    split at resolved
    · cases resolved
    next sha tagged =>
      split at resolved
      · cases resolved
      next rebuilt built =>
        split at resolved
        · cases resolved
        next now =>
          have now : (door.verify answer.lane .replacement image (exitsZero replacement)).holds =
              true := by
            simpa using now
          split at resolved
          next run started =>
            split at resolved
            · cases resolved
            next fails =>
              obtain ⟨hrun, inTime⟩ := Option.filter_eq_some_iff.mp started
              have inTime : run.timedOut = false := by simpa using inTime
              have fails : (door.verify answer.lane .before rebuilt (exitsZero replacement)).holds =
                false := by simpa using fails
              cases resolved
              simp only [ran, and_true]
              constructor
              · rintro ⟨same, failed, passed⟩ sha' rebuilt' tagged' built' - - -
                obtain rfl := Option.some.inj (tagged.symm.trans tagged')
                obtain rfl := Except.ok.inj (built.symm.trans built')
                exact ⟨same, (Verified.honest_iff_of_holds now).mpr passed,
                  (Verified.honest_iff_of_fails fails hrun inTime).mpr failed⟩
              · intro covers
                obtain ⟨same, honestNow, honestBefore⟩ :=
                  covers sha rebuilt tagged built now fails (by simp [hrun, inTime])
                exact ⟨same, (Verified.honest_iff_of_fails fails hrun inTime).mp honestBefore,
                  (Verified.honest_iff_of_holds now).mp honestNow⟩
          next => cases resolved

/-- A pass that `verify` does not let through covers anything. -/
theorem covers_of_refused {refusal : Refusal}
    (refused : resolve door image prior answer = .error refusal) :
    Covers door image prior answer finding := by
  unfold resolve at refused
  unfold Covers
  cases replaced : answer.resolvesWith with
  | none =>
    simp only [replaced, resolveByFinding] at refused ⊢
    intro named holds
    rw [if_neg named] at refused
    simp [holds] at refused
  | some replacement =>
    simp only [replaced, resolveByReplacement] at refused ⊢
    intro sha rebuilt tagged built now fails ended
    simp only [tagged, built, now, Bool.not_true, Bool.false_eq_true, if_false] at refused
    obtain ⟨run, ran, inTime⟩ := (Option.any_eq_true _ _).mp ended
    have started : (door.verify answer.lane .before rebuilt (exitsZero replacement)).run.filter
        (fun run => !run.timedOut) = some run :=
      Option.filter_eq_some_iff.mpr ⟨ran, inTime⟩
    simp [started, fails] at refused

end Pass

section Step

variable {env : Env} {l : Ledger} {c : Call} {p : Prepared}

theorem lane_write (l : Ledger) (reviewer : String) (s : Submission) (r lane : String) :
    (l.write reviewer (l.history reviewer ++ [s])).lane r lane =
      if r = reviewer then
        l.lane reviewer lane ++ (s.lanes.filter (·.lane = lane)).map (s.round, ·)
      else l.lane r lane := by
  unfold Ledger.lane
  rw [history_write]
  split
  · rw [entriesOf_append, List.filter_append, entriesOf_singleton, List.filter_map]
    rfl
  · rfl

theorem filter_lane_cases {entries : List Entry} (once : (entries.map Entry.lane).Nodup)
    (lane : String) : entries.filter (·.lane = lane) = [] ∨
      ∃ e ∈ entries, e.lane = lane ∧ entries.filter (·.lane = lane) = [e] := by
  induction entries with
  | nil => exact Or.inl rfl
  | cons e entries ih =>
    obtain ⟨absent, once⟩ := List.nodup_cons.mp once
    by_cases here : e.lane = lane
    · refine Or.inr ⟨e, List.mem_cons_self, here, ?_⟩
      rw [List.filter_cons_of_pos (by simpa using here)]
      congr 1
      refine List.filter_eq_nil_iff.mpr fun x hx => ?_
      rw [decide_eq_true_eq, ← here]
      exact fun same => absent (List.mem_map.mpr ⟨x, hx, same⟩)
    · rw [List.filter_cons_of_neg (by simpa using here)]
      rcases ih once with none | ⟨x, hx, there, one⟩
      · exact Or.inl none
      · exact Or.inr ⟨x, List.mem_cons_of_mem _ hx, there, one⟩

theorem findingToClose_eq_none_iff (admitted : Admitted env l c p) {answer : Answer}
    (passes : answer.verdict = .pass) :
    findingToClose (currentByLane p.doc) answer = none ↔
      unresolved (l.lane c.reviewer answer.lane) = [] := by
  rw [← not_iff_not, ← ne_eq, ← ne_eq, Ledger.lane, ← standing_isFinding, ← admitted.copy,
    ← get_currentByLane, findingToClose, if_pos passes, Option.any_eq_true,
    Option.ne_none_iff_exists']
  simp only [Option.filter_eq_some_iff]

/-- Wherever `verify` lets a pass close a standing finding, it shows every finding recorded since
the last pass gone. -/
def PassesCover (env : Env) (l : Ledger) (c : Call) : Prop :=
  ∀ p, prepare env l c = .ok p → c.write = .ok () →
    ∀ answer ∈ p.accepted, ∀ reproduction prior, answer.reproduction = some reproduction →
      (c.door.verify answer.lane .reproduction p.dispatch.image reproduction).holds = true →
      findingToClose (currentByLane p.doc) answer = some prior →
      ∀ finding ∈ unresolved (l.lane c.reviewer answer.lane),
        Covers c.door p.dispatch.image prior answer finding

def Backing (l : Ledger) : Prop := ∀ reviewer lane, Backed (l.lane reviewer lane)

theorem noLapse_of_backing (backing : Backing l) : NoLapse l :=
  fun reviewer lane none => settled_of_backed (backing reviewer lane) (no_open_iff.mp none)

theorem lane_of_verified (admitted : Admitted env l c p) {entry : Entry}
    (verified : entry ∈ (p.verify c.door).1) :
    (l.write c.reviewer (l.history c.reviewer ++ p.submissions c)).lane c.reviewer entry.lane =
      l.lane c.reviewer entry.lane ++ [(p.dispatch.round, entry)] := by
  have once := verify_lanes_nodup c.door (accepted_sound admitted).2
  rcases submissions_cases p c with none | one
  · unfold Prepared.submissions at none
    split at none
    next empty => simp [empty] at verified
    next => cases none
  · rw [one, lane_write, if_pos rfl]
    congr 1
    have here : entry ∈ (p.verify c.door).1.filter (·.lane = entry.lane) :=
      List.mem_filter.mpr ⟨verified, by simp⟩
    rcases filter_lane_cases once entry.lane with none | ⟨e, -, -, single⟩
    · rw [none] at here
      cases here
    · rw [single] at here
      rw [single, ← List.mem_singleton.mp here]
      rfl

theorem evidence_of_verified (admitted : Admitted env l c p) {entry : Entry}
    (verified : entry ∈ (p.verify c.door).1) (passes : entry.verdict = .pass) {finding : Entry}
    (recorded : finding ∈ unresolved (l.lane c.reviewer entry.lane)) :
    ∃ prior, findingToClose (currentByLane p.doc) entry.answer = some prior ∧
      (Evidence finding entry ↔ Covers c.door p.dispatch.image prior entry.answer finding) := by
  obtain ⟨-, ok⟩ := mem_verify verified
  obtain ⟨-, checked, ⟨open_, -⟩ | ⟨prior, resolution, closes, resolved, stored⟩⟩ :=
    verifyAnswer_ok ok
  · have none := (findingToClose_eq_none_iff admitted passes).mp open_
    rw [Entry.lane, none] at recorded
    cases recorded
  · exact ⟨prior, closes,
      evidence_iff_covers (checkReproduction_pass passes checked) resolved stored⟩

theorem recordAnswers_of_verified (prepared : prepare env l c = .ok p) (write : c.write = .ok ())
    {entry : Entry} (verified : entry ∈ (p.verify c.door).1) :
    ∃ response, recordAnswers env l c =
      .ok (response, l.write c.reviewer (l.history c.reviewer ++ p.submissions c)) := by
  have some : p.submissions c ≠ [] := by
    unfold Prepared.submissions
    split
    next empty => simp [empty] at verified
    next => simp
  unfold recordAnswers conclude
  rw [prepared, ← (prepare_ok prepared).copy]
  simp only [some, if_false, write]
  exact ⟨_, rfl⟩

end Step

section Runs

variable {env : Env} {t u : Trail} {a : Action}

/-- The condition on one step of a run. -/
def Trail.Covered (env : Env) (t : Trail) : Action → Prop
  | .dispatch _ => True
  | .record c => PassesCover env t.ledger c

theorem backing_step (backing : Backing t.ledger) (h : (reviews env).step t a = some u)
    (covered : t.Covered env a) : Backing u.ledger := by
  cases step_cases h with
  | same => exact backing
  | opened => exact backing
  | @added c p s prepared write appended =>
    have admitted := prepare_ok prepared
    intro r lane
    rw [lane_write]
    split
    next =>
      have lanes : s.lanes = (p.verify c.door).1 := by
        rcases submissions_cases p c with none | one
        · simp [none] at appended
        · rw [one] at appended
          exact (List.singleton_inj.mp appended) ▸ rfl
      have once := verify_lanes_nodup c.door (accepted_sound admitted).2
      rw [← lanes] at once
      rcases filter_lane_cases once lane with none | ⟨e, he, rfl, single⟩
      · rw [none, List.map_nil, List.append_nil]
        exact backing _ _
      · rw [single, List.map_singleton]
        refine backed_concat (backing _ _) fun passes finding recorded => ?_
        have verified : e ∈ (p.verify c.door).1 := lanes ▸ he
        obtain ⟨prior, closes, evidence⟩ := evidence_of_verified admitted verified passes recorded
        obtain ⟨accepted, ok⟩ := mem_verify verified
        obtain ⟨reproduction, stated, holds⟩ :=
          checkReproduction_holds passes (verifyAnswer_ok ok).2.1
        exact evidence.mpr (covered p prepared write _ accepted reproduction prior
          stated holds closes
          finding recorded)
    next => exact backing _ _

theorem covered_of_noLapse (h : (reviews env).step t a = some u) (safe : NoLapse u.ledger) :
    t.Covered env a := by
  cases a with
  | dispatch q => trivial
  | record c =>
    intro p prepared write answer accepted reproduction prior stated holds closes finding recorded
    cases outcome : verifyAnswer c.door p.dispatch.image (currentByLane p.doc) answer with
    | error refusal =>
      obtain ⟨refusal, refused⟩ := resolve_refused stated holds closes outcome
      exact covers_of_refused refused
    | ok entry =>
      obtain ⟨rfl, -⟩ := verifyAnswer_ok outcome
      have admitted := prepare_ok prepared
      have verified : entry ∈ (p.verify c.door).1 := by
        rw [verify_fst]
        exact List.mem_filterMap.mpr ⟨_, accepted, by rw [outcome]; rfl⟩
      have passes : entry.verdict = .pass := by
        by_contra other
        simp [findingToClose, show entry.answer.verdict ≠ .pass from other] at closes
      obtain ⟨response, returned⟩ := recordAnswers_of_verified prepared write verified
      have after : u.ledger = t.ledger.write c.reviewer
          (t.ledger.history c.reviewer ++ p.submissions c) := by
        cases h
        unfold recordStep
        rw [returned]
      obtain ⟨prior', closes', evidence⟩ := evidence_of_verified admitted verified passes recorded
      cases closes.symm.trans closes'
      refine evidence.mp (evidence_of_settled (x := (p.dispatch.round, entry)) ?_ finding recorded)
      have settled := safe c.reviewer entry.lane
      rw [no_open_iff, after, lane_of_verified admitted verified] at settled
      refine settled ?_
      rw [unresolved_concat]
      simp only [passes]

/-- No finding is ever closed without evidence against it exactly if every pass that `verify` lets
close a finding shows all findings recorded on its lane since the last pass gone. -/
theorem noLapse_iff_forall_covered (project : Option String) (ls : List Action) :
    (∀ x ∈ (reviews env).transitions (.start project) ls, NoLapse x.after.ledger) ↔
      ∀ x ∈ (reviews env).transitions (.start project) ls, x.before.Covered env x.label := by
  have start : Backing (Trail.start project).ledger := fun _ _ => backed_nil
  refine (reviews env).forall_after_iff_of_exact (J := fun _ => True)
    (P := fun t => Backing t.ledger) (Q := fun t => NoLapse t.ledger) (fun _ _ _ _ _ => trivial)
    (fun t a u _ backing step => ?_) (fun t a u _ backing step => backing_step backing step) trivial
    start ls
  exact ⟨covered_of_noLapse step,
    fun covered => noLapse_of_backing (backing_step backing step covered)⟩

def vacuousRun : List Action := [
  dispatchTo "a1" [("ada", ["ui"])],
  recordBy "ada" "a1/ada" (fun _ _ => { exitCode := some 0 }) [answerOn "ui" "finding" "true" 0],
  dispatchTo "b2" [("ada", ["ui"])],
  recordBy "ada" "b2/ada" (fun _ _ => { exitCode := some 0 }) [answerOn "ui" "pass" "true" 0]]

theorem vacuous_finding_lapses :
    ∃ t, (reviews sampleEnv).run (.start (some "p")) vacuousRun = some t ∧ ¬NoLapse t.ledger := by
  refine ⟨_, rfl, fun safe => ?_⟩
  have settled := safe "ada" "ui" (no_open_iff.mpr rfl)
  obtain ⟨pass, hpass, -, shown⟩ := settled [] _ [_] rfl rfl
  cases List.mem_singleton.mp hpass
  obtain ⟨-, ⟨n, exited, failed⟩, -⟩ := shown
  cases exited
  exact failed rfl

end Runs

end DreamStudio.Review
