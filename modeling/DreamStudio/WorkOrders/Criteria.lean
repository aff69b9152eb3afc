import DreamStudio.Library.Dict
import DreamStudio.Library.Gate
import DreamStudio.WorkOrders.Verdict
import Mathlib.Data.List.Sort

namespace DreamStudio.WorkOrders

open Library

/-- A row of `business_tasks`, as `_read_wo_tasks` reads it. -/
structure WorkOrderTask where
  taskId : String
  title : String
  description : String
  status : String
  acceptanceCriteria : String
  deriving DecidableEq

/-- What the gates read of one work order: its row, its tasks in the order of creation, the
artifacts the authority holds by kind and instance, the files of its `.planning` directory, and what
the design brief and the structural invariants come to. -/
structure Evidence where
  workOrderId : String
  createdAt : Option String
  tasks : List WorkOrderTask
  stored : String → String → Option String
  file : String → Option (Except String String)
  lockedBrief : Bool
  staleBrief : Option String
  violations : List String

structure Run where
  passed : Bool
  error : Option String
  executed : Bool
  unaddressed : Bool

/-- What the subprocesses, requests and queries of one gate give: a run for the check on each line
of a task, the commits `git log` lists after a commit, and where the checkout stands. -/
structure Outside where
  ran : WorkOrderTask → Nat → Run
  commitsAfter : String → Option (List String)
  deliveredStateHint : String

/-- `run_checks=True`, or the preview with `read_planning_dir`. -/
inductive Mode
  | executing (outside : Outside)
  | previewing (readPlanningDir : Bool)

def Mode.readPlanningDir : Mode → Bool
  | executing _ => true
  | previewing readPlanningDir => readPlanningDir

structure Check where
  kind : String
  expr : String
  passed : Bool
  error : Option String
  executed : Bool := false
  unaddressed : Bool := false
  notRun : Bool := false
  deriving DecidableEq

/-- `[A-Z]` where case is ignored: four more characters fold to a letter of it. -/
def tokenLetter (c : Char) : Bool :=
  ('a' ≤ c && c ≤ 'z') || ('A' ≤ c && c ≤ 'Z') ||
    c.val ∈ [0x130, 0x131, 0x17f, 0x212a]

/-- `[A-Z0-9_]`. -/
def tokenChar (c : Char) : Bool := tokenLetter c || ('0' ≤ c && c ≤ '9') || c = '_'

/-- `c.upper()` on what a token is made of. -/
def upperChar (c : Char) : Char :=
  if c.val = 0x131 then 'I' else if c.val = 0x17f then 'S' else c.toUpper

/-- `-CHECK` where case is ignored. -/
def isCheckSuffix (s : List Char) : Bool :=
  s.map (fun c => if c.val = 0x212a then 'K' else c.toUpper) = "-CHECK".toList

/-- `check_token`, with the token in capitals and the expression stripped as `check_lines` has
them. -/
def checkToken (rawLine : String) : Option (String × String) :=
  let line := (pyStrip rawLine).toList
  let name := line.takeWhile tokenChar
  let rest := line.drop name.length
  if (name.head?.any tokenLetter) ∧ isCheckSuffix (rest.take 6) ∧ rest[6]? = some ':' then
    some (String.ofList (name.map upperChar) ++ String.ofList ((rest.take 6).map upperChar),
      pyStrip (String.ofList (rest.drop 7)))
  else none

/-- `check_lines`. -/
def checkLines (task : WorkOrderTask) : List (String × String) :=
  (splitLines task.acceptanceCriteria).filterMap checkToken

/-- The kinds that have a runner, which are the keys of `_NOT_RUN_KINDS`. -/
def runnableKinds : List String := ["SQL-CHECK", "TEST-CHECK", "API-CHECK"]

def unknownCheck (token expr : String) : Check where
  kind := token
  expr := expr
  passed := false
  error := some ("Unknown check kind: '" ++ token ++ "' — fail-closed")

def Mode.check (m : Mode) (task : WorkOrderTask) (line : Nat) (token expr : String) : Check :=
  if token ∉ runnableKinds then unknownCheck token expr
  else
    match m with
    | executing outside =>
      let run := outside.ran task line
      { kind := token, expr := expr, passed := run.passed, error := run.error,
        executed := run.executed, unaddressed := run.unaddressed }
    | previewing _ =>
      { kind := token, expr := expr, passed := false, error := none, notRun := true }

def Mode.checksOn (m : Mode) (task : WorkOrderTask) : List Check :=
  (checkLines task).zipIdx.map fun ((token, expr), line) => m.check task line token expr

/-- `run_executable_checks` and `preview_executable_checks`: the checks by title, a task without a
check line leaving no entry. -/
def Mode.executableChecks (m : Mode) (tasks : List WorkOrderTask) : Dict String (List Check) :=
  tasks.foldl
    (fun results task =>
      let checks := m.checksOn task
      if checks.isEmpty then results else results.set task.title checks)
    []

def Mode.allChecks (m : Mode) (tasks : List WorkOrderTask) : List Check :=
  (m.executableChecks tasks).flatMap (·.2)

section Artifacts

variable (py : Stdlib) (ev : Evidence)

/-- `get_wo_artifact_envelope`. -/
def Evidence.artifactEnvelope (kind : String) (instanceKey : String := "") :
    Option String × Option Envelope :=
  unwrap py (ev.stored kind instanceKey)

/-- `get_wo_artifact`. -/
def Evidence.artifact (kind : String) (instanceKey : String := "") : Option String :=
  (ev.artifactEnvelope py kind instanceKey).1

/-- `carried_task_ids`. -/
def Evidence.carriedTaskIds : Except String (List String) := do
  let raw := (ev.artifact py "report" "carry_over").getD ""
  if raw = "" then return []
  match py.loads raw with
  | .error _ => return []
  | .ok payload =>
    let moved ← iterate (← attrGetD payload "moved" (.arr []))
    let ids ← moved.mapM fun entry =>
      match entry with
      | .obj fields =>
        match Json.lookup fields "from_task_id" with
        | .str id => .ok (if id = "" then [] else [id])
        -- a set takes neither
        | .arr (_ :: _) => .error "unhashable type: 'list'"
        | .obj (_ :: _) => .error "unhashable type: 'dict'"
        | _ => .ok []
      | _ => .ok []
    return ids.flatten

/-- The tasks no readable record says were carried away. -/
def Evidence.uncarried : List WorkOrderTask :=
  match ev.carriedTaskIds py with
  | .ok carried => ev.tasks.filter fun t => t.taskId ∉ carried
  | .error _ => ev.tasks

/-- `_is_operator_attested`. -/
def Evidence.isOperatorAttested : Except String Bool := do
  let raw := (ev.artifact py "review_verdict").getD ""
  if raw = "" then return false
  match py.loads raw with
  | .error _ => return false
  | .ok verdict => verdictIsOperatorAttested verdict

def unrunNote (unrun : List Check) : String :=
  let kinds := (unrun.map (·.kind)).dedup.insertionSort (· ≤ ·)
  let counts := ", ".intercalate (kinds.map fun kind =>
    toString (unrun.countP (·.kind = kind)) ++ " " ++ kind)
  let first := "; ".intercalate ((unrun.take 3).map fun c => py.repr (.str c.expr))
  let more :=
    if 3 < unrun.length then "; ...and " ++ toString (unrun.length - 3) ++ " more" else ""
  "executable_ac: " ++ counts ++
    " not run -- a non-executing preview starts no subprocess, sends no " ++
    "request and evaluates no authored query (" ++ first ++ more ++ ")"

def checkFailure (c : Check) : String :=
  objection "executable_ac" (c.kind ++ " " ++ py.repr (.str c.expr) ++ " FAILED — " ++
    (match c.error with
    | some error => if error = "" then "check returned falsy" else error
    | none => "check returned falsy"))

def checkFailures (failed : List Check) : List String :=
  (failed.take 5).map (checkFailure py) ++
    if 5 < failed.length then
      [objection "executable_ac"
        ("…and " ++ toString (failed.length - 5) ++ " more failed check(s)")]
    else []

def Check.failed (c : Check) : Bool := !c.passed && !c.notRun

def withoutChecks : Gate Unit := do
  if ← Gate.ofExcept (ev.isOperatorAttested py) then Gate.pass
  else
    Gate.refuse (objection "executable_ac" ("no executable checks (SQL-CHECK / TEST-CHECK / " ++
      "API-CHECK) found across all tasks — at least one is required to close without force=True (or " ++
      "attest the WO if its deliverable is operator-local and has no code to check)"))

def noteUnrun (unrun : List Check) : Gate Unit :=
  if unrun = [] then pure () else Gate.note (unrunNote py unrun)

def judgeChecks (allChecks : List Check) : Gate Unit := do
  noteUnrun py (allChecks.filter (·.notRun))
  Gate.refuseAll (checkFailures py (allChecks.filter (·.failed)))

/-- `_run_ac_gate`. -/
def runAcGate (m : Mode) : Gate Unit :=
  let allChecks := m.allChecks (ev.uncarried py)
  if allChecks = [] then withoutChecks py ev else judgeChecks py allChecks

end Artifacts

def lastWithChecks (tasks : List WorkOrderTask) (title : String) : Option WorkOrderTask :=
  tasks.reverse.find? fun t => t.title = title ∧ checkLines t ≠ []

/-- The mapping has the task's own checks. -/
def Kept (tasks : List WorkOrderTask) (t : WorkOrderTask) : Prop :=
  lastWithChecks tasks t.title = some t

instance (tasks : List WorkOrderTask) (t : WorkOrderTask) : Decidable (Kept tasks t) :=
  inferInstanceAs (Decidable (_ = _))

/-- Each check line of the task was run, and passed. -/
def Outside.Passes (out : Outside) (t : WorkOrderTask) : Prop :=
  ∀ line token expr, (checkLines t)[line]? = some (token, expr) →
    token ∈ runnableKinds ∧ (out.ran t line).passed = true

namespace Mode

variable (m : Mode) (tasks : List WorkOrderTask)

theorem checksOn_isEmpty (t : WorkOrderTask) :
    (m.checksOn t).isEmpty = decide (checkLines t = []) := by
  unfold checksOn
  cases checkLines t <;> simp

theorem executableChecks_concat (t : WorkOrderTask) :
    m.executableChecks (tasks ++ [t]) =
      if checkLines t = [] then m.executableChecks tasks
      else (m.executableChecks tasks).set t.title (m.checksOn t) := by
  simp [executableChecks, List.foldl_append, checksOn_isEmpty]

theorem lastWithChecks_concat (t : WorkOrderTask) (title : String) :
    lastWithChecks (tasks ++ [t]) title =
      if t.title = title ∧ checkLines t ≠ [] then some t else lastWithChecks tasks title := by
  unfold lastWithChecks
  rw [List.reverse_append, List.reverse_singleton, List.singleton_append, List.find?_cons]
  split
  next h => rw [if_pos (of_decide_eq_true h)]
  next h => rw [if_neg (of_decide_eq_false h)]

theorem get_executableChecks (title : String) :
    Dict.get (m.executableChecks tasks) title = (lastWithChecks tasks title).map m.checksOn := by
  induction tasks using List.reverseRecOn with
  | nil => rfl
  | append_singleton tasks t ih =>
    rw [executableChecks_concat, lastWithChecks_concat]
    by_cases none : checkLines t = []
    · rw [if_pos none, if_neg (fun h => h.2 none), ih]
    · rw [if_neg none, Dict.get_set]
      by_cases same : t.title = title
      · rw [if_pos same.symm, if_pos ⟨same, none⟩, Option.map_some]
      · rw [if_neg (Ne.symm same), if_neg (fun h => same h.1), ih]

theorem keys_executableChecks_nodup : (Dict.keys (m.executableChecks tasks)).Nodup := by
  induction tasks using List.reverseRecOn with
  | nil => simp [executableChecks, Dict.keys]
  | append_singleton tasks t ih =>
    rw [executableChecks_concat]
    split
    · exact ih
    · exact Dict.keys_set_nodup ih _ _

variable {m tasks}

theorem mem_of_kept {t : WorkOrderTask} (h : Kept tasks t) : t ∈ tasks :=
  List.mem_reverse.mp (List.mem_of_find?_eq_some h)

theorem lines_of_kept {t : WorkOrderTask} (h : Kept tasks t) : checkLines t ≠ [] := by
  have found := List.find?_some h
  simp only [decide_eq_true_eq] at found
  exact found.2

theorem mem_allChecks {c : Check} : c ∈ m.allChecks tasks ↔
    ∃ t, Kept tasks t ∧ c ∈ m.checksOn t := by
  unfold allChecks
  rw [List.mem_flatMap]
  constructor
  · rintro ⟨⟨title, checks⟩, member, held⟩
    have got := Dict.get_of_mem (m.keys_executableChecks_nodup tasks) member
    rw [get_executableChecks] at got
    obtain ⟨t, last, rfl⟩ := Option.map_eq_some_iff.mp got
    have named := List.find?_some last
    simp only [decide_eq_true_eq] at named
    exact ⟨t, by rw [Kept, named.1, last], held⟩
  · rintro ⟨t, kept, held⟩
    have got := m.get_executableChecks tasks t.title
    rw [show lastWithChecks tasks t.title = some t from kept] at got
    exact ⟨_, Dict.mem_of_get got, held⟩

theorem exists_kept {t : WorkOrderTask} (member : t ∈ tasks) (lines : checkLines t ≠ []) :
    ∃ t', Kept tasks t' ∧ t'.title = t.title := by
  cases last : lastWithChecks tasks t.title with
  | none =>
    have absent := List.find?_eq_none.mp last t (List.mem_reverse.mpr member)
    simp [lines] at absent
  | some t' =>
    have named := List.find?_some last
    simp only [decide_eq_true_eq] at named
    exact ⟨t', by rw [Kept, named.1, last], named.1⟩

theorem allChecks_eq_nil : m.allChecks tasks = [] ↔ ∀ t ∈ tasks, checkLines t = [] := by
  constructor
  · intro none t member
    by_contra lines
    obtain ⟨t', kept, -⟩ := exists_kept member lines
    cases held : m.checksOn t' with
    | nil =>
      have := m.checksOn_isEmpty t'
      simp [held, lines_of_kept kept] at this
    | cons c cs =>
      have : c ∈ m.allChecks tasks := mem_allChecks.mpr ⟨t', kept, by simp [held]⟩
      simp [none] at this
  · intro none
    rw [List.eq_nil_iff_forall_not_mem]
    intro c member
    obtain ⟨t, kept, -⟩ := mem_allChecks.mp member
    exact lines_of_kept kept (none t (mem_of_kept kept))

theorem mem_checksOn {t : WorkOrderTask} {c : Check} :
    c ∈ m.checksOn t ↔
      ∃ line token expr, (checkLines t)[line]? = some (token, expr) ∧
        c = m.check t line token expr := by
  unfold checksOn
  simp only [List.mem_map, Prod.exists, List.mk_mem_zipIdx_iff_getElem?]
  constructor
  · rintro ⟨token, expr, line, found, rfl⟩
    exact ⟨line, token, expr, found, rfl⟩
  · rintro ⟨line, token, expr, found, rfl⟩
    exact ⟨token, expr, line, found, rfl⟩

theorem check_kind {t : WorkOrderTask} {line : Nat} {token expr : String} :
    (m.check t line token expr).kind = token := by
  unfold check
  split
  · rfl
  · cases m <;> rfl

end Mode

section Executing

variable {py : Stdlib} {ev : Evidence} {out : Outside}

theorem check_passed {t : WorkOrderTask} {line : Nat} {token expr : String} :
    ((Mode.executing out).check t line token expr).passed = true ↔
      token ∈ runnableKinds ∧ (out.ran t line).passed = true := by
  unfold Mode.check
  by_cases known : token ∈ runnableKinds <;> simp [known, unknownCheck]

theorem passes_iff_checksOn {t : WorkOrderTask} :
    out.Passes t ↔ ∀ c ∈ (Mode.executing out).checksOn t, c.passed = true := by
  constructor
  · intro passes c member
    obtain ⟨line, token, expr, found, rfl⟩ := Mode.mem_checksOn.mp member
    exact check_passed.mpr (passes line token expr found)
  · intro passed line token expr found
    exact check_passed.mp (passed _ (Mode.mem_checksOn.mpr ⟨line, token, expr, found, rfl⟩))

theorem executing_notRun {tasks : List WorkOrderTask} :
    ∀ c ∈ (Mode.executing out).allChecks tasks, c.notRun = false := by
  intro c member
  obtain ⟨t, -, held⟩ := Mode.mem_allChecks.mp member
  obtain ⟨line, token, expr, -, rfl⟩ := Mode.mem_checksOn.mp held
  unfold Mode.check
  split <;> rfl

theorem checkFailures_eq_nil {failed : List Check} : checkFailures py failed = [] ↔
    failed = [] := by
  cases failed with
  | nil => simp [checkFailures]
  | cons c cs => simp [checkFailures]

theorem no_failed_iff {tasks : List WorkOrderTask} :
    ((Mode.executing out).allChecks tasks).filter (·.failed) = [] ↔
      ∀ t ∈ tasks, Kept tasks t → out.Passes t := by
  rw [List.filter_eq_nil_iff]
  constructor
  · intro none t _ kept
    rw [passes_iff_checksOn]
    intro c held
    have member : c ∈ (Mode.executing out).allChecks tasks := Mode.mem_allChecks.mpr ⟨t, kept, held⟩
    simpa [Check.failed, executing_notRun c member] using none c member
  · intro passes c member
    obtain ⟨t, kept, held⟩ := Mode.mem_allChecks.mp member
    have passed := passes_iff_checksOn.mp (passes t (Mode.mem_of_kept kept) kept) c held
    simp [Check.failed, passed]

/-- `_run_ac_gate` returned no failure. -/
def AcGatePasses (py : Stdlib) (ev : Evidence) (out : Outside) : Prop :=
  (runAcGate py ev (.executing out)).failures = .ok []

theorem withoutChecks_passes :
    (withoutChecks py ev).failures = .ok [] ↔ ev.isOperatorAttested py = .ok true := by
  unfold withoutChecks
  cases ev.isOperatorAttested py with
  | error error => exact ⟨nofun, nofun⟩
  | ok attested =>
    cases attested with
    | false => exact ⟨nofun, nofun⟩
    | true => exact ⟨fun _ => rfl, fun _ => rfl⟩

theorem noteUnrun_course (unrun : List Check) : (noteUnrun py unrun).course = .goes () := by
  unfold noteUnrun
  split <;> rfl

theorem judgeChecks_failures (checks : List Check) :
    (judgeChecks py checks).failures = .ok (checkFailures py (checks.filter (·.failed))) := by
  unfold judgeChecks
  rw [Gate.failures_bind_of_goes (noteUnrun_course _), Gate.failures_refuseAll]

theorem acGatePasses_iff :
    AcGatePasses py ev out ↔
      if ∀ t ∈ ev.uncarried py, checkLines t = [] then ev.isOperatorAttested py = .ok true
      else ∀ t ∈ ev.uncarried py, Kept (ev.uncarried py) t → out.Passes t := by
  unfold AcGatePasses runAcGate
  by_cases none : ∀ t ∈ ev.uncarried py, checkLines t = []
  · simp only [if_pos none, if_pos (Mode.allChecks_eq_nil.mpr none)]
    exact withoutChecks_passes
  · simp only [if_neg none, if_neg (Mode.allChecks_eq_nil.not.mpr none)]
    rw [judgeChecks_failures, Except.ok.injEq, checkFailures_eq_nil, no_failed_iff]

/-- Every check line of every task that was not carried away was run and passed, or there is none
and a person certified the work. -/
def Covered (py : Stdlib) (ev : Evidence) (out : Outside) : Prop :=
  ((∃ t ∈ ev.uncarried py, checkLines t ≠ []) ∧ ∀ t ∈ ev.uncarried py, out.Passes t) ∨
    (∀ t ∈ ev.uncarried py, checkLines t = []) ∧ ev.isOperatorAttested py = .ok true

theorem passes_of_no_lines {t : WorkOrderTask} (none : checkLines t = []) : out.Passes t := by
  intro line token expr found
  simp [none] at found

/-- The gate covers every criterion exactly when the checks the mapping loses pass anyway, or one it
has fails. -/
theorem acGate_covers_iff :
    (AcGatePasses py ev out → Covered py ev out) ↔
      (∀ t ∈ ev.uncarried py, ¬Kept (ev.uncarried py) t → out.Passes t) ∨
        ∃ t ∈ ev.uncarried py, Kept (ev.uncarried py) t ∧ ¬out.Passes t := by
  rw [acGatePasses_iff]
  by_cases none : ∀ t ∈ ev.uncarried py, checkLines t = []
  · rw [if_pos none]
    refine ⟨fun _ => Or.inl fun t member _ => passes_of_no_lines (none t member),
      fun _ attested => ?_⟩
    exact Or.inr ⟨none, attested⟩
  · rw [if_neg none]
    constructor
    · intro covers
      by_cases failing : ∃ t ∈ ev.uncarried py, Kept (ev.uncarried py) t ∧ ¬out.Passes t
      · exact Or.inr failing
      · left
        intro t member _
        have kept : ∀ t ∈ ev.uncarried py, Kept (ev.uncarried py) t → out.Passes t := by
          intro t member kept
          by_contra fails
          exact failing ⟨t, member, kept, fails⟩
        rcases covers kept with ⟨-, passes⟩ | ⟨absent, -⟩
        · exact passes t member
        · exact absurd absent none
    · intro condition kept
      left
      refine ⟨by simpa using none, fun t member => ?_⟩
      by_cases own : Kept (ev.uncarried py) t
      · exact kept t member own
      · rcases condition with lost | ⟨t', member', own', fails⟩
        · exact lost t member own
        · exact absurd (kept t' member' own') fails

end Executing

section Shadowing

def bareStdlib : Stdlib where
  loads _ := .error "Expecting value: line 1 column 1 (char 0)"
  repr _ := ""
  search _ _ := none
  int _ := .ok 0
  upper s := s
  lower s := s
  sortByFloat := .ok
  fixed _ := .ok ""

def shipTask (id target : String) : WorkOrderTask where
  taskId := id
  title := "Ship the parser"
  description := ""
  status := "complete"
  acceptanceCriteria := "TEST-CHECK: " ++ target

def shadowedTasks : Evidence where
  workOrderId := "wo"
  createdAt := none
  tasks := [shipTask "t1" "tests/test_lexer.py", shipTask "t2" "tests/test_parser.py"]
  stored _ _ := none
  file _ := none
  lockedBrief := false
  staleBrief := none
  violations := []

def lexerFails : Outside where
  ran task _ :=
    if task.taskId = "t1" then
      ⟨false, some "TEST-CHECK failed: tests ran and FAILED (exit 1)", true, false⟩
    else ⟨true, none, true, false⟩
  commitsAfter _ := none
  deliveredStateHint := ""

/-- The gate passes over the failed check. -/
theorem acGate_loses_check :
    AcGatePasses bareStdlib shadowedTasks lexerFails ∧
      ¬Covered bareStdlib shadowedTasks lexerFails := by
  have held : shadowedTasks.uncarried bareStdlib = shadowedTasks.tasks := rfl
  have first : checkLines (shipTask "t1" "tests/test_lexer.py") =
      [("TEST-CHECK", "tests/test_lexer.py")] := by decide +kernel
  have second : checkLines (shipTask "t2" "tests/test_parser.py") =
      [("TEST-CHECK", "tests/test_parser.py")] := by decide +kernel
  have lines : ¬∀ t ∈ shadowedTasks.tasks, checkLines t = [] := by
    simp [shadowedTasks, first]
  constructor
  · rw [acGatePasses_iff, held, if_neg lines]
    intro t member kept
    rcases List.mem_pair.mp member with rfl | rfl
    · exact absurd kept (by decide +kernel)
    · rw [passes_iff_checksOn]
      intro c here
      simp only [Mode.checksOn, second] at here
      cases List.mem_singleton.mp here
      rfl
  · rintro (⟨-, passes⟩ | ⟨absent, -⟩)
    · have fails := passes _ List.mem_cons_self 0 _ _ (by rw [first]; rfl)
      exact Bool.noConfusion fails.2
    · exact lines absent

end Shadowing

end DreamStudio.WorkOrders
