import DreamStudio.Review.Dispatch
import DreamStudio.Review.Sandbox

namespace DreamStudio.Review

open Library

/-- Which of the runs of one answer a call of `verify` is. -/
inductive Stage
  | reproduction
  | replacement
  | before
  | finding
  deriving DecidableEq

/-- The injected `verify` and `ensure_image`; they may come out differently for each lane and
stage. -/
structure Door where
  verify : String → Stage → String → Reproduction → Verified
  ensureImage : String → String → Except String String

/-- The door as it is by default: `verify_reproduction` over a container runtime. -/
def sandboxDoor (runner : String → String → Run) (buildImage : String → Except String String) :
    Door where
  verify _ _ := verifyReproduction runner
  ensureImage _ := buildImage

/-- The arguments of `record_answers`, and what it finds of Docker, the clock and the write. -/
structure Call where
  reviewer : String
  answers : List Json
  credential : Option String
  available : Except String Unit := .ok ()
  methodRequirements : String → List Method := fun _ => []
  door : Door
  now : String
  write : Except String Unit := .ok ()

structure Recording where
  reviewer : String
  workOrderId : String
  round : Nat
  stored : Bool
  accepted : List Entry
  refused : List Refusal
  unanswered : List String
  complete : Bool

inductive RecordResponse
  | refusedSubmission (reason : String)
  | recorded (recording : Recording)

/-- What a call has in hand before its first container runs: `doc` is its copy of the history. -/
structure Prepared where
  dispatch : Dispatch
  assigned : List String
  accepted : List Answer
  refused : List Refusal
  doc : List Submission

/-- The checks of `record_answers`, in its order, and the reads that follow them. -/
def prepare (env : Env) (l : Ledger) (c : Call) : Except String Prepared :=
  let who := env.repr (.str c.reviewer)
  if l.project = none then
    .error ("no work order " ++ env.repr (.str env.workOrderId) ++
      " in this authority. A review recorded against an id that names nothing is a review nobody will ever read.")
  else
    match l.dispatch with
    | none =>
      .error ("no dispatch is recorded for " ++ env.workOrderId ++
        ". Run `ds review --dispatch --work-order " ++ env.workOrderId ++
        "` first: it builds the lane image and records which lanes each reviewer is asked, and answers are held to that record.")
    | some d =>
      let assigned := dispatchedLanes (some d) c.reviewer
      let round := "round " ++ toString d.round
      if assigned = [] then
        .error (who ++ " was dispatched no lane in " ++ round ++ " of " ++ env.workOrderId ++ ".")
      else
        match (Dict.get d.credentialHashes c.reviewer).filter (· ≠ "") with
        | none =>
          .error (round ++ " of " ++ env.workOrderId ++ " carries no credential for " ++ who ++
            ", so nothing can show this submission comes from it. Dispatch a new round (`ds review --dispatch --work-order " ++
            env.workOrderId ++ "`), which issues each reviewer its own.")
        | some expected =>
          if env.credentialHash (c.credential.getD "") ≠ expected then
            .error ("this submission does not carry the credential issued to " ++ who ++ " when " ++
              round ++
              " was dispatched. Each reviewer is handed its own; one seat cannot answer as another.")
          else
            match c.available with
            | .error whyNot =>
              .error ("cannot re-run reproductions: " ++ whyNot ++
                ". Nothing is recorded -- a reproduction the door cannot run is a claim it would be taking on trust.")
            | .ok () =>
              let (accepted, refused) :=
                validateAnswers env.repr c.reviewer assigned c.methodRequirements c.answers
              .ok {
                dispatch := d, assigned := assigned, accepted := accepted, refused := refused
                doc := l.history c.reviewer }

/-- `s[-1500:]`. -/
def tail1500 (s : String) : String := String.ofList (s.toList.drop (s.length - 1500))

/-- `entry["run"]`. -/
def recordRun (run : Option Run) (image : String) : RunRecord where
  exitCode := run.bind (·.exitCode)
  outputSha256 := run.map (·.outputSha256)
  outputTail := (run.map fun r => tail1500 r.outputTail).getD ""
  image := image

/-- `s.split(":", 1)[1]`, if there is a colon. -/
def afterColon (s : String) : Option String :=
  match s.toList.dropWhile (· ≠ ':') with
  | [] => none
  | _ :: rest => some (String.ofList rest)

def exitsZero (command : String) : Reproduction := { command := command, exitCode := .int 0 }

def checkReproduction (door : Door) (image : String) (answer : Answer) :
    Except Refusal (Option RunRecord) :=
  if !answer.verdict.tested then .ok none
  else
    match answer.reproduction with
    | none => .error { lane := answer.lane, reason := "the reproduction has no command" }
    | some reproduction =>
      let v := door.verify answer.lane .reproduction image reproduction
      if !v.holds then .error { lane := answer.lane, reason := v.reason, run := v.run }
      else .ok (some (recordRun v.run image))

def Standing.image (s : Standing) : String := (s.entry.run.map (·.image)).getD ""

def Standing.command (s : Standing) : String :=
  (s.entry.answer.reproduction.map (·.command)).getD ""

/-- A replacement test must pass here and fail where the finding was recorded. -/
def resolveByReplacement (door : Door) (image : String) (prior : Standing)
    (lane replacement : String) : Except Refusal Resolution :=
  match afterColon prior.image with
  | none =>
    .error {
      lane := lane
      reason := "the finding from round " ++ toString prior.round ++
        " records no image, so a replacement test cannot be run against the commit it was found in"
          }
  | some sha =>
    match door.ensureImage lane sha with
    | .error exc =>
      .error {
        lane := lane
        reason := "cannot rebuild " ++ prior.image ++ " to test the replacement: " ++ exc }
    | .ok beforeImage =>
      let now := door.verify lane .replacement image (exitsZero replacement)
      if !now.holds then
        .error {
          lane := lane
          reason := "the replacement test does not pass at this commit -- " ++ now.reason
          run := now.run }
      else
        let before := door.verify lane .before beforeImage (exitsZero replacement)
        match before.run.filter (!·.timedOut) with
        | some run =>
          if before.holds then
            .error { lane := lane, reason := notDiscriminating, run := before.run }
          else
            .ok (.replacement replacement run.exitCode beforeImage
              (now.run.bind (·.exitCode)) image)
        | none => .error { lane := lane, reason := notDiscriminating, run := before.run }
where
  notDiscriminating : String :=
    "the replacement test did not fail at " ++ prior.image ++
      ", where the finding was recorded in round " ++
      toString prior.round ++
      ", so it does not discriminate the fix -- a test that passes before and after resolves nothing"

def resolveByFinding (door : Door) (image : String) (prior : Standing) (lane : String) :
    Except Refusal Resolution :=
  if pyStrip prior.command = "" then
    .error {
      lane := lane
      reason := "the finding from round " ++ toString prior.round ++
        " carries no reproduction to re-run, so no pass can show it resolved" }
  else
    let v := door.verify lane .finding image (exitsZero prior.command)
    if !v.holds then
      .error {
        lane := lane
        reason := "lane " ++ lane ++ " holds an open finding from round " ++ toString prior.round ++
          ", and a pass resolves it only when that finding's own reproduction now exits 0 -- " ++
          v.reason ++
          ". If that reproduction has gone stale, give a `resolves_with` test that fails at the finding's commit and passes at this one"
        run := v.run }
    else
      .ok (.own prior.command (v.run.bind (·.exitCode)) (v.run.map (·.outputSha256)) image)

def resolve (door : Door) (image : String) (prior : Standing) (answer : Answer) :
    Except Refusal Resolution :=
  match answer.resolvesWith with
  | some replacement => resolveByReplacement door image prior answer.lane replacement
  | none => resolveByFinding door image prior answer.lane

def findingToClose (standing : Dict String Standing) (answer : Answer) : Option Standing :=
  if answer.verdict = .pass then (Dict.get standing answer.lane).filter (·.isFinding) else none

def verifyAnswer (door : Door) (image : String) (standing : Dict String Standing)
    (answer : Answer) :
    Except Refusal Entry := do
  let run ← checkReproduction door image answer
  match findingToClose standing answer with
  | some prior =>
    let resolution ← resolve door image prior answer
    return { answer := answer, run := run, resolutionRun := some resolution }
  | none => return { answer := answer, run := run }

def verifyAnswers (door : Door) (image : String) (standing : Dict String Standing)
    (accepted : List Answer) (refused : List Refusal) : List Entry × List Refusal :=
  collect (verifyAnswer door image standing) accepted refused

def Prepared.verify (p : Prepared) (door : Door) : List Entry × List Refusal :=
  verifyAnswers door p.dispatch.image (currentByLane p.doc) p.accepted p.refused

def Prepared.submissions (p : Prepared) (c : Call) : List Submission :=
  match (p.verify c.door).1 with
  | [] => []
  | verified => [{ round := p.dispatch.round, at_ := c.now, lanes := verified }]

/-- The rest of `record_answers`: the container runs and the write of the whole history. -/
def conclude (env : Env) (l : Ledger) (c : Call) (p : Prepared) :
    Except String (RecordResponse × Ledger) := do
  let (verified, refused) := p.verify c.door
  let doc := p.doc ++ p.submissions c
  let answered := (doc.filter (·.round = p.dispatch.round)).flatMap fun s => s.lanes.map (·.lane)
  let unanswered := (sortedSet p.assigned).filter (· ∉ answered)
  let response := .recorded {
    reviewer := c.reviewer, workOrderId := env.workOrderId, round := p.dispatch.round
    stored := true, accepted := verified, refused := refused, unanswered := unanswered
    complete := unanswered.isEmpty && refused.isEmpty }
  if p.submissions c = [] then return (response, l)
  c.write
  return (response, l.write c.reviewer doc)

/-- `record_answers`; an error is a raise, which stores nothing. -/
def recordAnswers (env : Env) (l : Ledger) (c : Call) : Except String (RecordResponse × Ledger) :=
  match prepare env l c with
  | .error reason => .ok (.refusedSubmission reason, l)
  | .ok p => conclude env l c p

end DreamStudio.Review
