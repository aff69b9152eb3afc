import DreamStudio.WorkOrders.Merge

namespace DreamStudio.WorkOrders

open Library

section Certified

variable (py : Stdlib)

/-- A stored verdict that says the work passed: it came in an envelope that names a generator, and
it is an object that does not call itself unreviewable. -/
structure Certified (ev : Evidence) (envelope verdict : List (String × Json)) : Prop where
  stored : ∃ raw, ev.readVerdict py = .ok (some raw, some envelope) ∧
    py.loads raw = .ok (.obj verdict)
  generator : (Json.lookup envelope "generator").truthy = true
  judged : (Json.lookup verdict "unreviewable").truthy = false
  evidence : ∃ summary findings, verdictEvidence py (.obj verdict) = .ok (summary, findings) ∧
    startsWith (py.lower summary) unreviewablePhrase = false
  passed : Json.lookup verdict "passed" = .bool true

/-- No commit of the work order came after the one the envelope records, as far as git can tell. -/
def Unsurpassed (out : Outside) (envelope : List (String × Json)) : Prop :=
  (Json.lookup envelope "head_commit_sha").truthy = false ∨
    ∀ newest rest, out.commitsAfter ((Json.lookup envelope "head_commit_sha").pyStr py.repr) ≠
      some (newest :: rest)

/-- A person attested the verdict, or its round table has seats. -/
def Convened (verdict : List (String × Json)) : Prop :=
  Json.lookup verdict "certification_basis" = .str "operator_attested" ∨
    ∃ table, (Json.lookup verdict "round_table").or (.obj []) = .obj table ∧
      (Json.lookup table "seats").truthy = true

variable {py} {ev : Evidence}

theorem classify_passed {verdict : List (String × Json)} {info info' : VerdictInfo}
    (classified : classify py verdict info = .ok info') : info'.state = .passed ↔
      (Json.lookup verdict "unreviewable").truthy = false ∧
      (∃ summary findings, verdictEvidence py (.obj verdict) = .ok (summary, findings) ∧
        startsWith (py.lower summary) unreviewablePhrase = false) ∧
      Json.lookup verdict "passed" = .bool true := by
  unfold classify at classified
  obtain ⟨⟨summary, findings⟩, evidence, classified⟩ := bind_eq_ok.mp classified
  simp only at classified
  split at classified
  next warned =>
    cases classified
    refine iff_of_false nofun fun ⟨judged, ⟨summary', findings', evidence', silent⟩, _⟩ => ?_
    rw [evidence] at evidence'
    cases evidence'
    rw [judged, silent] at warned
    cases warned
  next silent =>
    obtain ⟨judged, silent⟩ := Bool.or_eq_false_iff.mp (eq_false_of_ne_true silent)
    simp only [pure, Except.pure] at classified
    split at classified
    next passed =>
      cases classified
      exact iff_of_true rfl ⟨judged, ⟨summary, findings, evidence, silent⟩, passed⟩
    next unpassed =>
      refine iff_of_false ?_ fun h => unpassed h.2.2
      split at classified <;> cases classified <;> exact nofun

theorem verdictState_passed {info : VerdictInfo} (read : verdictState py ev = .ok info) :
    info.state = .passed ↔ ∃ envelope verdict, Certified py ev envelope verdict := by
  unfold verdictState at read
  cases stored : ev.readVerdict py with
  | error exc =>
    rw [stored] at read
    cases read
    refine iff_of_false nofun fun ⟨_, _, certified⟩ => ?_
    obtain ⟨raw, held, -⟩ := certified.stored
    rw [stored] at held
    cases held
  | ok held =>
    obtain ⟨raw, envelope⟩ := held
    cases raw with
    | none =>
      rw [stored] at read
      cases read
      refine iff_of_false nofun fun ⟨_, _, certified⟩ => ?_
      obtain ⟨raw, held, -⟩ := certified.stored
      rw [stored] at held
      cases held
    | some raw =>
      have only : ∀ fields verdict, Certified py ev fields verdict →
          envelope = some fields ∧ py.loads raw = .ok (.obj verdict) := by
        intro fields verdict certified
        obtain ⟨raw', held, loads⟩ := certified.stored
        rw [stored] at held
        cases held
        exact ⟨rfl, loads⟩
      rw [stored] at read
      simp only at read
      split at read
      next unsigned =>
        cases read
        refine iff_of_false nofun fun ⟨fields, verdict, certified⟩ => ?_
        rw [(only fields verdict certified).1, Option.any_some, certified.generator] at unsigned
        cases unsigned
      next signed =>
        have signed : envelope.any (fun fields => (Json.lookup fields "generator").truthy) =
            true := by
          simpa using signed
        obtain ⟨fields, rfl, generator⟩ : ∃ fields, envelope = some fields ∧
            (Json.lookup fields "generator").truthy = true := by
          cases envelope with
          | none => cases signed
          | some fields => exact ⟨fields, rfl, signed⟩
        cases loads : py.loads raw with
        | error exc =>
          rw [loads] at read
          cases read
          refine iff_of_false nofun fun ⟨fields, verdict, certified⟩ => ?_
          have := (only fields verdict certified).2
          rw [loads] at this
          cases this
        | ok value =>
          cases value with
          | obj verdict =>
            rw [loads] at read
            rw [classify_passed read]
            constructor
            · rintro ⟨judged, evidence, passed⟩
              exact ⟨fields, verdict, ⟨raw, stored, loads⟩, generator, judged, evidence, passed⟩
            · rintro ⟨fields', verdict', certified⟩
              obtain ⟨-, same⟩ := only fields' verdict' certified
              rw [loads] at same
              cases same
              exact ⟨certified.judged, certified.evidence, certified.passed⟩
          | _ =>
            rw [loads] at read
            cases read
            refine iff_of_false nofun fun ⟨fields, verdict, certified⟩ => ?_
            have := (only fields verdict certified).2
            rw [loads] at this
            cases this

theorem verdictState_certified {envelope verdict : List (String × Json)}
    (certified : Certified py ev envelope verdict) : ∃ info, verdictState py ev = .ok info := by
  obtain ⟨raw, stored, loads⟩ := certified.stored
  obtain ⟨summary, findings, evidence, silent⟩ := certified.evidence
  unfold verdictState
  rw [stored]
  simp only [Option.any_some, certified.generator, Bool.not_true, Bool.false_eq_true,
    if_false, loads]
  unfold classify
  rw [evidence, ok_bind]
  simp only [certified.judged, silent, Bool.or_self, Bool.false_eq_true, if_false, certified.passed]
  exact ⟨_, rfl⟩

theorem verdictArtifact_eq (ev : Evidence) :
    verdictArtifact py ev = Gate.ofExcept (ev.readVerdict py) := by
  unfold verdictArtifact Evidence.artifactWithEnvelope Evidence.readVerdict Evidence.readFile
  by_cases held : (ev.artifactEnvelope py "review_verdict").1.isSome = true
  · simp only [if_pos held]
    rfl
  · simp only [if_neg held]
    cases ev.file (kindToFilename "review_verdict") with
    | none => rfl
    | some text => cases text <;> rfl

theorem provenanceStaleness_executing (py : Stdlib) (out : Outside)
    (envelope : List (String × Json)) :
    (provenanceStaleness py (.executing out) (some envelope) = pure none ∧
      Unsurpassed py out envelope) ∨
      ¬Unsurpassed py out envelope ∧
        ((∃ stale, provenanceStaleness py (.executing out) (some envelope) =
            pure (some stale)) ∨
          ∃ error, provenanceStaleness py (.executing out) (some envelope) =
            Gate.raise error) := by
  unfold provenanceStaleness Unsurpassed
  cases headed : (Json.lookup envelope "head_commit_sha").truthy with
  | false => exact Or.inl ⟨if_pos (by rw [headed]; rfl), Or.inl rfl⟩
  | true =>
    simp only [if_neg (show ¬(!(Json.lookup envelope "head_commit_sha").truthy) = true by
      rw [headed]; decide)]
    cases after : out.commitsAfter ((Json.lookup envelope "head_commit_sha").pyStr py.repr) with
    | none => exact Or.inl ⟨rfl, Or.inr nofun⟩
    | some commits =>
      cases commits with
      | nil => exact Or.inl ⟨rfl, Or.inr nofun⟩
      | cons newest rest =>
        refine Or.inr ⟨fun fresh => fresh.elim nofun fun none => none newest rest rfl, ?_⟩
        cases shortSha py (Json.lookup envelope "head_commit_sha") with
        | error exc => exact Or.inr ⟨exc, rfl⟩
        | ok short => exact Or.inl ⟨_, rfl⟩

theorem refuseStale_executing (py : Stdlib) (out : Outside) (envelope : List (String × Json))
    (message : String → String) :
    (refuseStale py (.executing out) (some envelope) message = pure () ∧
      Unsurpassed py out envelope) ∨
      ¬Unsurpassed py out envelope ∧ ∀ f : Unit → Gate Unit,
        (refuseStale py (.executing out) (some envelope) message >>= f).failures ≠ .ok [] := by
  unfold refuseStale
  rcases provenanceStaleness_executing py out envelope with
    ⟨none, fresh⟩ | ⟨stale, ⟨text, some⟩ | ⟨error, raised⟩⟩
  · rw [none]
    exact Or.inl ⟨rfl, fresh⟩
  · rw [some]
    exact Or.inr ⟨stale, fun f refused => nomatch refused⟩
  · rw [raised]
    exact Or.inr ⟨stale, fun f refused => nomatch refused⟩

theorem convenedNoLane_passed (py : Stdlib) (workOrderId : String) {verdict : List (String × Json)}
    (passed : Json.lookup verdict "passed" = .bool true) :
    convenedNoLane py workOrderId (.obj verdict) = .ok none ↔ Convened verdict := by
  have attested : verdictIsOperatorAttested (.obj verdict) = .ok true ∧
        Json.lookup verdict "certification_basis" = .str "operator_attested" ∨
      verdictIsOperatorAttested (.obj verdict) = .ok false ∧
        Json.lookup verdict "certification_basis" ≠ .str "operator_attested" := by
    unfold verdictIsOperatorAttested attrGet
    simp only [ok_bind, passed, Json.truthy, Bool.not_true, Bool.false_eq_true, if_false]
    cases Json.lookup verdict "certification_basis" with
    | str basis =>
      by_cases same : basis = "operator_attested"
      · exact Or.inl ⟨by simp [same, pure, Except.pure], by rw [same]⟩
      · exact Or.inr ⟨by simp [same, pure, Except.pure], by simpa using same⟩
    | _ => exact Or.inr ⟨rfl, nofun⟩
  unfold convenedNoLane Convened
  rcases attested with ⟨yes, basis⟩ | ⟨no, basis⟩
  · rw [yes]
    exact iff_of_true rfl (Or.inl basis)
  · rw [no]
    simp only [ok_bind, Bool.false_eq_true, if_false, basis, false_or, attrGet]
    cases (Json.lookup verdict "round_table").or (.obj []) with
    | obj table =>
      simp only [ok_bind]
      cases seats : (Json.lookup table "seats").truthy with
      | true => exact iff_of_true rfl ⟨table, rfl, seats⟩
      | false =>
        refine iff_of_false nofun ?_
        rintro ⟨table', same, seated⟩
        cases same
        rw [seats] at seated
        cases seated
    | _ => exact iff_of_false nofun nofun

theorem independentReview_certified {out : Outside} {envelope verdict : List (String × Json)}
    (certified : Certified py ev envelope verdict) :
    (runGateCheck py ev (.executing out) "independent_review").failures = .ok [] ↔
      Unsurpassed py out envelope ∧ Convened verdict := by
  obtain ⟨raw, stored, loads⟩ := certified.stored
  have convened := convenedNoLane_passed py ev.workOrderId certified.passed
  change (independentReview py ev (.executing out)).failures = _ ↔ _
  unfold independentReview
  rw [verdictArtifact_eq, stored]
  have here : absentAndUnreadable py ev (.executing out) "review_verdict" "independent_review" =
      pure () := rfl
  rw [here]
  simp only [Gate.pure_bind', Gate.ofExcept, Option.any_some, certified.generator, Bool.not_true,
    Bool.false_eq_true, if_false]
  rcases refuseStale_executing py out envelope fun stale =>
      objection "independent_review" ("verdict is stale — " ++ stale ++
        ". Re-run: ds work-order verify " ++ ev.workOrderId) with ⟨passes, fresh⟩ | ⟨stale, refused⟩
  · rw [passes, Gate.pure_bind', loads, ← convened]
    simp only [fresh, true_and, judgeVerdict]
    cases convenedNoLane py ev.workOrderId (.obj verdict) with
    | error _ => exact iff_of_false nofun nofun
    | ok reason =>
      cases reason with
      | some reason => exact iff_of_false nofun nofun
      | none =>
        simp only [ok_bind, attrGet, certified.passed]
        exact iff_of_true rfl trivial
  · exact iff_of_false (refused _) fun h => stale h.1

end Certified

section Resolved

variable {ids : List String} {branch id : String}

theorem candidates_empty : candidates "" = [] := rfl

theorem resolveWorkOrder_branch (py : Stdlib) {authority : Option (Except String (List String))} :
    (resolveWorkOrder py authority none (some branch)).1 = some id ↔
      ∃ ids, authority = some (.ok ids) ∧
        (candidates branch).findSome? (fun candidate => ids.find? (denotes candidate)) =
          some id := by
  unfold resolveWorkOrder
  rw [Option.getD_none, Option.getD_some, if_neg (not_not.mpr rfl)]
  split
  next empty =>
    rw [empty, candidates_empty]
    exact iff_of_false nofun fun ⟨_, _, found⟩ => nomatch found
  next =>
    simp only
    cases candidates branch with
    | nil => exact iff_of_false nofun fun ⟨_, _, found⟩ => nomatch found
    | cons first rest =>
      cases authority with
      | none => exact iff_of_false nofun fun ⟨_, unread, _⟩ => nomatch unread
      | some read =>
        cases read with
        | error reason => exact iff_of_false nofun fun ⟨_, unread, _⟩ => nomatch unread
        | ok ids =>
          simp only [Option.some.injEq, Except.ok.injEq, exists_eq_left']
          cases (first :: rest).findSome? fun candidate => ids.find? (denotes candidate) with
          | none => exact iff_of_false nofun nofun
          | some found => exact Iff.rfl

/-- The ids that a name in the branch is the start of. -/
def Named (ids : List String) (branch id : String) : Prop :=
  id ∈ ids ∧ ∃ name ∈ candidates branch, denotes name id = true

/-- All the names in the branch are the start of one id at most. -/
def Unambiguous (ids : List String) (branch : String) : Prop :=
  ∀ id other, Named ids branch id → Named ids branch other → other = id

theorem named_of_found
    (found : (candidates branch).findSome? (fun candidate => ids.find? (denotes candidate)) =
      some id) :
    Named ids branch id := by
  obtain ⟨name, mem, found⟩ := List.exists_of_findSome?_eq_some found
  exact ⟨List.mem_of_find?_eq_some found, name, mem, List.find?_some found⟩

theorem unambiguous_iff (named : Named ids branch id) :
    Unambiguous ids branch ↔ ∀ name ∈ candidates branch, ∀ other ∈ ids, denotes name other = true →
      other = id := by
  constructor
  · intro one name mem other stored denoted
    exact one id other named ⟨stored, name, mem, denoted⟩
  · rintro only first second ⟨stored, name, mem, denoted⟩ ⟨stored', name', mem', denoted'⟩
    rw [only name mem first stored denoted, only name' mem' second stored' denoted']

end Resolved

section Sound

variable (py : Stdlib) (site : MergeSite) (branch : String)

/-- What a report of a branch's readiness says of the work order it found. -/
def SoundReport : Prop :=
  ∀ report id, mergeReadiness py site none (some branch) = .ok report → report.ready = true →
    report.workOrderId = some id →
    (∀ ids, site.authority = some (.ok ids) →
      ∀ name ∈ candidates branch, ∀ other ∈ ids, denotes name other = true → other = id) ∧
    (runGateCheck py (site.evidence id) (.executing (site.outside id))
      "independent_review").failures = .ok []

/-- The first id that the branch names has a certified verdict and no lane that holds it. -/
def ReadyFor (ids : List String) (id : String) (envelope verdict : List (String × Json)) : Prop :=
  site.authority = some (.ok ids) ∧
    (candidates branch).findSome? (fun candidate => ids.find? (denotes candidate)) = some id ∧
    Certified py (site.evidence id) envelope verdict ∧ ∃ status, site.lanes id = .ok status ∧
      status.blocking = false

variable {py site branch}

theorem mergeReadiness_ready {id : String} :
    (∃ report, mergeReadiness py site none (some branch) = .ok report ∧ report.ready = true ∧
      report.workOrderId = some id) ↔
        ∃ ids envelope verdict, ReadyFor py site branch ids id envelope verdict := by
  unfold mergeReadiness
  cases resolved : resolveWorkOrder py site.authority none (some branch) with
  | mk found why =>
    cases found with
    | none =>
      refine iff_of_false ?_ ?_
      · rintro ⟨report, made, -, named⟩
        cases made
        cases named
      · rintro ⟨ids, envelope, verdict, authority, found, -⟩
        have := (resolveWorkOrder_branch py).mpr ⟨ids, authority, found⟩
        rw [resolved] at this
        cases this
    | some first =>
      obtain ⟨ids, authority, found⟩ := (resolveWorkOrder_branch py).mp (congrArg Prod.fst resolved)
      simp only
      constructor
      · rintro ⟨report, made, ready, named⟩
        obtain ⟨info, read, made⟩ := bind_eq_ok.mp made
        obtain ⟨status, lanes, made⟩ := bind_eq_ok.mp made
        cases made
        cases named
        obtain ⟨passed, unheld⟩ := Bool.and_eq_true_iff.mp ready
        obtain ⟨envelope, verdict, certified⟩ :=
          (verdictState_passed read).mp (of_decide_eq_true passed)
        exact ⟨ids, envelope, verdict, authority, found, certified, status, lanes, by
          simpa using unheld⟩
      · rintro ⟨ids', envelope, verdict, authority', found', certified, status, lanes, unheld⟩
        rw [authority] at authority'
        cases authority'
        rw [found] at found'
        cases found'
        obtain ⟨info, read⟩ := verdictState_certified certified
        have passed := (verdictState_passed read).mpr ⟨envelope, verdict, certified⟩
        rw [read, ok_bind, lanes, ok_bind]
        refine ⟨_, rfl, ?_, rfl⟩
        simp only [passed, unheld]
        rfl

/-- A ready report is sound exactly if the branch is unambiguous, the verdict not surpassed and a
bench was convened for it, or the branch comes to no work order that is certified and not held. -/
theorem soundReport_iff : SoundReport py site branch ↔
    ∀ ids id envelope verdict, ReadyFor py site branch ids id envelope verdict →
      Unambiguous ids branch ∧ Unsurpassed py (site.outside id) envelope ∧ Convened verdict := by
  constructor
  · intro sound ids id envelope verdict ready
    obtain ⟨report, made, isReady, named⟩ :=
      mergeReadiness_ready.mpr ⟨ids, envelope, verdict, ready⟩
    obtain ⟨only, passes⟩ := sound report id made isReady named
    exact ⟨(unambiguous_iff (named_of_found ready.2.1)).mpr (only ids ready.1),
      (independentReview_certified ready.2.2.1).mp passes⟩
  · intro holds report id made isReady named
    obtain ⟨ids, envelope, verdict, ready⟩ := mergeReadiness_ready.mp ⟨report, made, isReady, named⟩
    obtain ⟨one, gate⟩ := holds ids id envelope verdict ready
    refine ⟨fun ids' authority => ?_, (independentReview_certified ready.2.2.1).mpr gate⟩
    rw [ready.1] at authority
    cases authority
    exact (unambiguous_iff (named_of_found ready.2.1)).mp one

end Sound

def passedVerdict : String :=
  "\x7b\"passed\": true, \"summary\": \"All criteria hold.\", \"round_table\": \x7b\"seats\": [\"correctness\"]\x7d\x7d"

def passedEnvelope : String :=
  "\x7b\"__ds_envelope__\": 1, \"generator\": \"ds work-order verify\", \"head_commit_sha\": \"3f2a\", " ++
    "\"content\": \"...\"\x7d"

def passedFields : List (String × Json) :=
  [("passed", .bool true), ("summary", .str "All criteria hold."),
    ("round_table", .obj [("seats", .arr [.str "correctness"])])]

def passedStdlib : Stdlib where
  loads text :=
    if text = passedEnvelope then
      .ok (.obj [("__ds_envelope__", .int 1), ("generator", .str "ds work-order verify"),
        ("head_commit_sha", .str "3f2a"), ("content", .str passedVerdict)])
    else if text = passedVerdict then .ok (.obj passedFields)
    else .error "Expecting value"
  repr _ := ""
  search _ _ := none
  int _ := .error "invalid literal for int()"
  upper s := String.ofList (s.toList.map Char.toUpper)
  lower s := String.ofList (s.toList.map Char.toLower)
  sortByFloat parts := .ok parts
  fixed _ := .ok ""

def overtakenSite : MergeSite where
  authority := some (.ok ["6a4c21d1-0000-4000-8000-000000000000"])
  evidence id :=
    { workOrderId := id
      createdAt := none
      tasks := []
      stored := fun kind _ => if kind = "review_verdict" then some passedEnvelope else none
      file := fun _ => none
      lockedBrief := true
      staleBrief := none
      violations := [] }
  lanes _ := .ok
    { dispatched := true
      round := some 1
      sha := some "3f2a"
      image := none
      unanswered := []
      openFindings := []
      cannotTell := []
      resolved := []
      awaitingReferee := []
      chairLanes := []
      seatModels := []
      reasons := []
      blocking := false }
  outside _ :=
    ⟨fun _ _ => ⟨true, none, true, false⟩,
    fun sha => if sha = "3f2a" then some ["9b1c"] else none, ""⟩

theorem loads_passedVerdict : passedStdlib.loads passedVerdict = .ok (.obj passedFields) := by
  have apart : passedVerdict ≠ passedEnvelope := by decide +kernel
  simp only [passedStdlib, if_neg apart, if_true]

theorem read_overtaken (id : String) :
    (overtakenSite.evidence id).readVerdict passedStdlib = .ok (some passedVerdict,
      some [("__ds_envelope__", .int 1), ("generator", .str "ds work-order verify"),
        ("head_commit_sha", .str "3f2a")]) := by
  have opening : startsWith (String.ofList (passedEnvelope.toList.dropWhile pySpace)) "\x7b" =
      true := by
    have letters : passedEnvelope.toList = _ ++ _ := String.toList_append.trans
      (congrArg₂ (· ++ ·) String.toList_ofList String.toList_ofList)
    rw [startsWith, letters, String.toList_ofList, String.toList_ofList]
    rfl
  have loads : passedStdlib.loads passedEnvelope = .ok (.obj [("__ds_envelope__", .int 1),
      ("generator", .str "ds work-order verify"), ("head_commit_sha", .str "3f2a"),
      ("content", .str passedVerdict)]) := by
    simp only [passedStdlib, if_true]
  have unwrapped : (overtakenSite.evidence id).artifactEnvelope passedStdlib "review_verdict" =
      unwrap passedStdlib (some passedEnvelope) := rfl
  rw [Evidence.readVerdict, unwrapped, unwrap, opening, loads]
  rfl

theorem overtaken_certified (id : String) : Certified passedStdlib (overtakenSite.evidence id)
    [("__ds_envelope__", .int 1), ("generator", .str "ds work-order verify"),
      ("head_commit_sha", .str "3f2a")]
    passedFields where
  stored := ⟨passedVerdict, read_overtaken id, loads_passedVerdict⟩
  generator := rfl
  judged := rfl
  evidence := ⟨"All criteria hold.", [], by rfl, by decide +kernel⟩
  passed := rfl

/-- The report is ready, and the gate says that the verdict is stale. -/
theorem overtaken_unsound :
    ¬∀ (py : Stdlib) (site : MergeSite) (branch : String), SoundReport py site branch := by
  intro all
  have found : (candidates "wo-6a4c21d1").findSome? (fun candidate =>
      ["6a4c21d1-0000-4000-8000-000000000000"].find? (denotes candidate)) =
        some "6a4c21d1-0000-4000-8000-000000000000" := by
    decide +kernel
  have certified := overtaken_certified "6a4c21d1-0000-4000-8000-000000000000"
  obtain ⟨report, made, ready, named⟩ := mergeReadiness_ready.mpr
    ⟨_, _, _, rfl, found, certified, _, rfl, rfl⟩
  have passes := (all passedStdlib overtakenSite "wo-6a4c21d1" report _ made ready named).2
  rcases ((independentReview_certified certified).mp passes).1 with unheaded | fresh
  · cases unheaded
  · exact fresh "9b1c" [] rfl

end DreamStudio.WorkOrders
