import DreamStudio.Library.Machine
import DreamStudio.Review.Record

namespace DreamStudio.Review

open Library

inductive Action
  | dispatch (q : Request)
  | record (c : Call)

inductive Event
  | opened (doc : Dispatch) (credentials : Dict String String)
  | added (reviewer : String) (credential : Option String) (submission : Submission)

structure Trail where
  ledger : Ledger
  log : List Event := []

def dispatchStep (env : Env) (t : Trail) (q : Request) : Trail :=
  match recordDispatch env t.ledger q with
  | .ok (.opened doc credentials, l) => { ledger := l, log := t.log ++ [.opened doc credentials] }
  | .ok (.alreadyDispatched .., l) => { t with ledger := l }
  | .error _ => t

def recordStep (env : Env) (t : Trail) (c : Call) : Trail :=
  match recordAnswers env t.ledger c with
  | .ok (_, l) =>
    {
      ledger := l
      log := t.log ++
        ((l.history c.reviewer).drop (t.ledger.history c.reviewer).length).map
          (.added c.reviewer c.credential ·) }
  | .error _ => t

/-- Any sequence of `record_dispatch` and `record_answers` on one work order. -/
def reviews (env : Env) : Machine Trail Action where
  step t
    | .dispatch q => some (dispatchStep env t q)
    | .record c => some (recordStep env t c)

def Trail.start (project : Option String) : Trail where
  ledger := { project := project }

section Dispatch

variable {env : Env} {l : Ledger} {q : Request}

structure Resolves (l : Ledger) (q : Request) (assignments : List Slot) (carried : List String) :
    Prop where
  known : l.project ≠ none
  owned : ∀ slot ∈ q.assignments, strayLanes q.owned slot = []
  content : resolveRoundContent l q.assignments q.owned q.models = .ok (assignments, carried)

theorem checkOwnership_ok {owned : Dict String (List String)} {slot : Slot}
    (h : checkOwnership owned slot = .ok ()) : strayLanes owned slot = [] := by
  unfold checkOwnership at h
  by_contra stray
  simp [stray] at h

theorem recordDispatch_ok {response : DispatchResponse} {l' : Ledger}
    (h : recordDispatch env l q = .ok (response, l')) :
    ∃ assignments carried, Resolves l q assignments carried ∧
      ((∃ prior, l.dispatch = some prior ∧ q.repeats prior assignments carried = true ∧
          response = alreadyDispatchedResponse prior q.sha ∧ l' = l) ∨
        (response = .opened (openRound env l q assignments carried)
            (issueCredentials q.token assignments) ∧
          l' = { l with dispatch := some (openRound env l q assignments carried) })) := by
  unfold recordDispatch at h
  by_cases unknown : l.project = none
  · simp [unknown, bind_eq_ok, throw, throwThe, MonadExceptOf.throw] at h
  · simp only [unknown, if_false] at h
    obtain ⟨_, checked, h⟩ := bind_eq_ok.mp h
    obtain ⟨⟨assignments, carried⟩, content, h⟩ := bind_eq_ok.mp h
    refine ⟨assignments, carried,
      ⟨unknown, fun slot hslot => checkOwnership_ok (forM_eq_ok checked slot hslot), content⟩, ?_⟩
    simp only at h
    split at h
    next prior standing =>
      obtain ⟨same, repeats⟩ := Option.filter_eq_some_iff.mp standing
      cases h
      exact Or.inl ⟨prior, same, repeats, rfl, rfl⟩
    next =>
      obtain ⟨_, -, h⟩ := bind_eq_ok.mp h
      cases h
      exact Or.inr ⟨rfl, rfl⟩

end Dispatch

section Record

variable {env : Env} {l : Ledger} {c : Call}

/-- What `prepare` has checked and read. -/
structure Admitted (env : Env) (l : Ledger) (c : Call) (p : Prepared) : Prop where
  dispatch : l.dispatch = some p.dispatch
  assigned : p.assigned = dispatchedLanes (some p.dispatch) c.reviewer
  asked : p.assigned ≠ []
  credential : Dict.get p.dispatch.credentialHashes c.reviewer =
    some (env.credentialHash (c.credential.getD ""))
  answers : (p.accepted, p.refused) =
    validateAnswers env.repr c.reviewer p.assigned c.methodRequirements c.answers
  copy : p.doc = l.history c.reviewer

theorem prepare_ok {p : Prepared} (h : prepare env l c = .ok p) : Admitted env l c p := by
  unfold prepare at h
  simp only at h
  split at h
  · cases h
  · split at h
    · cases h
    next d standing =>
      split at h
      · cases h
      next asked =>
        split at h
        · cases h
        next expected found =>
          split at h
          · cases h
          next same =>
            split at h
            · cases h
            · cases h
              obtain ⟨hash, -⟩ := Option.filter_eq_some_iff.mp found
              exact ⟨standing, rfl, asked, hash.trans (congrArg some (not_not.mp same).symm), rfl,
                rfl⟩

theorem accepted_sound {p : Prepared} (admitted : Admitted env l c p) :
    (∀ answer ∈ p.accepted, answer.lane ∈ p.assigned) ∧ (p.accepted.map (·.lane)).Nodup := by
  have sound := @validateAnswers_sound env.repr c.reviewer p.assigned c.methodRequirements c.answers
  rw [← admitted.answers] at sound
  exact ⟨fun answer h => (sound.1 answer h).assigned, sound.2⟩

theorem verify_fst (p : Prepared) (door : Door) :
    (p.verify door).1 = p.accepted.filterMap fun answer =>
      (verifyAnswer door p.dispatch.image (currentByLane p.doc) answer).toOption := by
  unfold Prepared.verify verifyAnswers
  rw [collect_fst]

theorem verifyAnswer_ok {door : Door} {image : String} {standing : Dict String Standing}
    {answer : Answer} {entry : Entry} (h : verifyAnswer door image standing answer = .ok entry) :
    entry.answer = answer ∧ checkReproduction door image answer = .ok entry.run ∧
      ((findingToClose standing answer = none ∧ entry.resolutionRun = none) ∨
        ∃ prior resolution, findingToClose standing answer = some prior ∧
          resolve door image prior answer = .ok resolution ∧
          entry.resolutionRun = some resolution) := by
  unfold verifyAnswer at h
  obtain ⟨run, checked, h⟩ := bind_eq_ok.mp h
  split at h
  next prior closes =>
    obtain ⟨resolution, resolved, h⟩ := bind_eq_ok.mp h
    cases h
    exact ⟨rfl, checked, Or.inr ⟨prior, resolution, closes, resolved, rfl⟩⟩
  next opens =>
    cases h
    exact ⟨rfl, checked, Or.inl ⟨opens, rfl⟩⟩

theorem mem_verify {p : Prepared} {door : Door} {entry : Entry} (h : entry ∈ (p.verify door).1) :
    entry.answer ∈ p.accepted ∧
      verifyAnswer door p.dispatch.image (currentByLane p.doc) entry.answer = .ok entry := by
  rw [verify_fst] at h
  obtain ⟨answer, accepted, h⟩ := List.mem_filterMap.mp h
  cases verified : verifyAnswer door p.dispatch.image (currentByLane p.doc) answer with
  | error refusal => simp [verified, Except.toOption] at h
  | ok e =>
    simp only [verified, Except.toOption, Option.some.injEq] at h
    subst h
    obtain ⟨rfl, -⟩ := verifyAnswer_ok verified
    exact ⟨accepted, verified⟩

theorem verify_lanes_nodup {p : Prepared} (door : Door) (h : (p.accepted.map (·.lane)).Nodup) :
    ((p.verify door).1.map Entry.lane).Nodup := by
  rw [verify_fst]
  refine List.Nodup.sublist ?_ h
  induction p.accepted with
  | nil => exact List.Sublist.slnil
  | cons answer rest ih =>
    cases verified : verifyAnswer door p.dispatch.image (currentByLane p.doc) answer with
    | error refusal =>
      rw [List.filterMap_cons_none (by simp [verified, Except.toOption])]
      exact ih.trans (List.sublist_cons_self ..)
    | ok e =>
      rw [List.filterMap_cons_some (b := e) (by simp [verified, Except.toOption]), List.map_cons,
        List.map_cons, Entry.lane, (verifyAnswer_ok verified).1]
      exact ih.cons_cons _

theorem submissions_cases (p : Prepared) (c : Call) :
    p.submissions c = [] ∨
      p.submissions c =
        [{ round := p.dispatch.round, at_ := c.now, lanes := (p.verify c.door).1 }] := by
  unfold Prepared.submissions
  split
  next h => exact Or.inl rfl
  next h => exact Or.inr rfl

theorem conclude_ok {p : Prepared} {response : RecordResponse} {l' : Ledger}
    (h : conclude env l c p = .ok (response, l')) :
    (p.submissions c = [] ∧ l' = l) ∨
      (p.submissions c ≠ [] ∧ c.write = .ok () ∧
        l' = l.write c.reviewer (p.doc ++ p.submissions c)) := by
  unfold conclude at h
  simp only at h
  by_cases empty : p.submissions c = []
  · simp only [empty, if_true] at h
    cases h
    exact Or.inl ⟨empty, rfl⟩
  · simp only [empty, if_false] at h
    obtain ⟨_, write, h⟩ := bind_eq_ok.mp h
    cases h
    exact Or.inr ⟨empty, write, rfl⟩

theorem recordAnswers_ok {response : RecordResponse} {l' : Ledger}
    (h : recordAnswers env l c = .ok (response, l')) :
    l' = l ∨ ∃ p, prepare env l c = .ok p ∧ c.write = .ok () ∧ p.submissions c ≠ [] ∧
      l' = l.write c.reviewer (l.history c.reviewer ++ p.submissions c) := by
  unfold recordAnswers at h
  split at h
  · cases h
    exact Or.inl rfl
  next p prepared =>
    rcases conclude_ok h with ⟨-, rfl⟩ | ⟨added, write, rfl⟩
    · exact Or.inl rfl
    · exact Or.inr ⟨p, prepared, write, added, by rw [(prepare_ok prepared).copy]⟩

end Record

section Steps

variable {env : Env} {t u : Trail}

inductive Trail.Step (env : Env) (t : Trail) : Action → Trail → Prop
  | same (a : Action) : Trail.Step env t a t
  | opened {q : Request} {assignments : List Slot} {carried : List String}
      (resolves : Resolves t.ledger q assignments carried) :
      Trail.Step env t (.dispatch q) {
        ledger := { t.ledger with
          dispatch := some (openRound env t.ledger q assignments carried) }
        log := t.log ++ [.opened (openRound env t.ledger q assignments carried)
          (issueCredentials q.token assignments)] }
  | added {c : Call} {p : Prepared} {s : Submission} (prepared : prepare env t.ledger c = .ok p)
      (write : c.write = .ok ()) (appended : p.submissions c = [s]) :
      Trail.Step env t (.record c) {
        ledger := t.ledger.write c.reviewer (t.ledger.history c.reviewer ++ [s])
        log := t.log ++ [.added c.reviewer c.credential s] }

theorem step_cases {a : Action} (h : (reviews env).step t a = some u) : Trail.Step env t a u := by
  cases a with
  | dispatch q =>
    cases h
    unfold dispatchStep
    split
    next doc credentials l returned =>
      obtain ⟨assignments, carried, resolves, ⟨_, -, -, opened, -⟩ | ⟨opened, rfl⟩⟩ :=
        recordDispatch_ok returned
      · cases opened
      · cases opened
        exact .opened resolves
    next l returned =>
      obtain ⟨assignments, carried, resolves, ⟨_, -, -, -, rfl⟩ | ⟨opened, -⟩⟩ :=
        recordDispatch_ok returned
      · exact .same _
      · cases opened
    next => exact .same _
  | record c =>
    cases h
    unfold recordStep
    split
    next l returned =>
      rcases recordAnswers_ok returned with rfl | ⟨p, prepared, write, added, rfl⟩
      · simpa using Trail.Step.same _
      · rcases submissions_cases p c with none | one
        · exact absurd none added
        · simpa [one] using Trail.Step.added prepared write one
    next => exact .same _

end Steps

section Samples

def sampleEnv : Env where
  workOrderId := "wo-1"
  credentialHash c := "sha256:" ++ c
  repr _ := ""

theorem sampleEnv_injective : Function.Injective sampleEnv.credentialHash := by
  intro a b h
  simpa [sampleEnv] using h

def dispatchTo (name : String) (slots : List (String × List String)) : Action :=
  .dispatch {
    sha := name, image := "lane:" ++ name, changeSet := .arr []
    assignments := slots.map fun (r, lanes) => { reviewer := some r, seat := none, lanes := lanes }
    owned := slots, models := [], token := (name ++ "/" ++ ·), now := "" }

/-- An answer with a reproduction that exited with `code`. -/
def answerOn (lane verdict command : String) (code : Int) (resolvesWith : String := "") : Json :=
  .obj [
    ("lane", .str lane), ("verdict", .str verdict), ("evidence", .str "seen"),
    ("resolves_with", .str resolvesWith),
    ("reproduction", .obj [("command", .str command), ("exit_code", .int code)])]

def recordBy (reviewer credential : String) (runner : String → String → Run) (answers : List Json) :
    Action :=
  .record {
    reviewer := reviewer, answers := answers, credential := some credential, now := ""
    door := sandboxDoor runner fun sha => .ok ("lane:" ++ sha) }

end Samples

end DreamStudio.Review
