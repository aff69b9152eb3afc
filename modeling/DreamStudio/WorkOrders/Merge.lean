import DreamStudio.Library.Table
import DreamStudio.Review.Ledger
import DreamStudio.WorkOrders.Gates

namespace DreamStudio.WorkOrders

open Library

/-- `[0-9a-f]` where case is ignored. -/
def hexDigit (c : Char) : Bool :=
  ('0' ≤ c && c ≤ '9') || ('a' ≤ c && c ≤ 'f') || ('A' ≤ c && c ≤ 'F')

/-- What `_UUID` matches at the start of a text: runs of so many digits with a dash between them. -/
def uuidAt : List Nat → List Char → Option (List Char)
  | [], _ => some []
  | [n], cs => if (cs.take n).length = n ∧ (cs.take n).all hexDigit then some (cs.take n) else none
  | n :: ns, cs =>
    if (cs.take n).length = n ∧ (cs.take n).all hexDigit then
      match cs.drop n with
      | '-' :: cs' => (uuidAt ns cs').map fun rest => cs.take n ++ '-' :: rest
      | _ => none
    else none

/-- And `_BRANCH_WO`, the group of it. -/
def branchWoAt : List Char → Option (List Char)
  | w :: o :: '-' :: cs =>
    let id := cs.takeWhile hexDigit
    if (w = 'w' ∨ w = 'W') ∧ (o = 'o' ∨ o = 'O') ∧ 8 ≤ id.length then some id else none
  | _ => none

/-- `pattern.search(text)`. -/
def searchAt (match_ : List Char → Option (List Char)) (text : String) : Option String :=
  (text.toList.tails.findSome? match_).map String.ofList

def candidates (branch : String) : List String :=
  (searchAt (uuidAt [8, 4, 4, 4, 12]) branch).toList ++ (searchAt branchWoAt branch).toList

/-- `work_order_id LIKE candidate || '%'`. -/
def denotes (candidate id : String) : Bool := like (candidate ++ "%").toList id.toList

/-- What a merge check reads: the ids of the authority in the order of their rows, or why there are
none to read; what is stored for a work order; its lane review; what git gives. -/
structure MergeSite where
  authority : Option (Except String (List String))
  evidence : String → Evidence
  lanes : String → Except String Review.ReviewStatus
  outside : String → Outside

inductive VerdictState
  | passed
  | failed
  | unreviewable
  | absent
  | unreadable
  | noWorkOrder
  deriving DecidableEq

namespace VerdictState

def advice : VerdictState → String
  | passed => "Verify certified this work order. Merge on a green 3-platform matrix."
  | failed =>
    "Verify found gaps in THIS work order. Fix them, or record the override deliberately — every red on main on " ++
      "2026-08-19 came from merging past a verdict like this one."
  | unreviewable =>
    "Verify ran but could not judge (grader outage or no located evidence). Nothing was found wrong and nothing " ++
      "was confirmed right — re-run verify rather than reading this as approval."
  | absent =>
    "Verify has never produced a provenance-bound verdict for this work order. Run: ds work-order verify <id>"
  | unreadable => "The stored verdict cannot be parsed. Re-run verify."
  | noWorkOrder =>
    "No work order is associated with this change, so there is no verdict to consult. Merge on the 3-platform " ++
      "matrix as usual."

end VerdictState

/-- What `verdict_state` returns. -/
structure VerdictInfo where
  state : VerdictState := .absent
  summary : Option String := none
  reason : Option String := none
  generator : Json := .null
  execution : Option (List (String × Json)) := none
  attachmentPressure : Option Json := none

structure MergeReport where
  ready : Bool
  state : VerdictState
  workOrderId : Option String
  reason : Option String
  summary : Option String := none
  execution : Option (List (String × Json)) := none
  laneReview : Option (Bool × Bool × List String) := none
  advice : String

section Merge

variable (py : Stdlib)

/-- `resolve_work_order`: the id, or the reason it was not found. -/
def resolveWorkOrder (authority : Option (Except String (List String)))
    (workOrderId branch : Option String) :
    Option String × Option String :=
  if workOrderId.getD "" ≠ "" then (workOrderId, none)
  else if branch.getD "" = "" then (none, some "no work order id and no branch given")
  else
    let branch := branch.getD ""
    match candidates branch with
    | [] =>
      (none, some ("branch " ++ py.repr (.str branch) ++
        " does not name a work order (no uuid, no wo-<shortid>)"))
    | first :: rest =>
      match authority with
      | none => (none, some "no authority database available to resolve the work order")
      | some (.error reason) => (none, some reason)
      | some (.ok ids) =>
        match (first :: rest).findSome? fun candidate => ids.find? (denotes candidate) with
        | some id => (some id, none)
        | none => (none, some ("no work order matches " ++ py.repr (.str first)))

/-- `_artifact_with_envelope` on the verdict. -/
def Evidence.readVerdict (ev : Evidence) : Except String (Option String × Option Envelope) :=
  let held := ev.artifactEnvelope py "review_verdict"
  if held.1.isSome then .ok held
  else
    match ev.file (kindToFilename "review_verdict") with
    | none => .ok (none, none)
    | some text => (fun text => unwrap py (some text)) <$> text

def unreviewablePhrase : String := "independent review unreviewable"

/-- What `verdict_state` makes of a verdict that is an object. -/
def classify (verdict : List (String × Json)) (info : VerdictInfo) : Except String VerdictInfo := do
  let (summary, findings) ← verdictEvidence py (.obj verdict)
  let info := { info with summary := if summary = "" then none else some summary }
  if (Json.lookup verdict "unreviewable").truthy ||
    startsWith (py.lower summary) unreviewablePhrase then
    return { info with
      state := .unreviewable
      reason := some (if summary = "" then "verify could not judge the work" else summary) }
  let pressure := Json.lookup verdict "attachment_pressure"
  let info := { info with
    execution :=
      match Json.lookup verdict "test_execution" with
      | .obj execution => some execution
      | _ => none
    attachmentPressure := if pressure.truthy then some pressure else none }
  if let .bool true := Json.lookup verdict "passed" then return { info with state := .passed }
  if summary = "" ∧ findings.isEmpty then
    return { info with
      state := .unreviewable
      reason := some "verdict says passed=False but carries no summary and no reasons" }
  return { info with
    state := .failed
    reason := some
      (if summary ≠ "" then summary
      else pyTake 300 ("; ".intercalate (findings.map fun finding => finding.pyStr py.repr))) }

/-- `verdict_state`. -/
def verdictState (ev : Evidence) : Except String VerdictInfo :=
  match ev.readVerdict py with
  | .error exc => .ok { state := .unreadable, reason := some (pyTake 200 ("verdict unreadable: " ++ exc)) }
  | .ok (none, _) =>
    .ok { reason := some "no review verdict stored — verify has not run for this work order" }
  | .ok (some raw, envelope) =>
    if !(envelope.any fun fields => (Json.lookup fields "generator").truthy) then
      .ok { reason := some "stored verdict carries no provenance envelope (hand-written or legacy)"
        }
    else
      let generator := Json.lookup (envelope.getD []) "generator"
      match py.loads raw with
      | .error exc =>
        .ok { state := .unreadable, generator := generator
              reason := some (pyTake 200 ("stored verdict is not valid JSON: " ++ exc)) }
      | .ok (.obj verdict) => classify py verdict { generator := generator }
      | .ok _ =>
        .ok { state := .unreadable, generator := generator
              reason := some "stored verdict is not a JSON object" }

/-- `execution_caveat`, before anything has run. -/
def executionCaveat (execution : Option (List (String × Json))) : Option String :=
  match execution with
  | none => none
  | some execution =>
    match Json.lookup execution "basis" with
    | .str "none_registered" =>
      some ("This work order registers no TEST-CHECK, so its review certified by reading the code, not by " ++
        "running it. Nothing was executed.")
    | .str "not_run_at_verify" =>
      some ((Json.lookup execution "registered").pyStr py.repr ++
        " TEST-CHECK(s) are registered but none ran " ++
        "during verify, so the review is not execution-backed yet.")
    | _ => none

/-- `merge_readiness`. -/
def mergeReadiness (site : MergeSite) (workOrderId branch : Option String) :
    Except String MergeReport :=
  match resolveWorkOrder py site.authority workOrderId branch with
  | (none, why) =>
    .ok { ready := true, state := .noWorkOrder, workOrderId := none, reason := why
          advice := VerdictState.noWorkOrder.advice }
  | (some resolved, _) => do
    let info ← verdictState py (site.evidence resolved)
    let lanes ← site.lanes resolved
    let caveat :=
      match info.state, executionCaveat py info.execution with
      | .passed, some caveat => " CAVEAT: " ++ caveat
      | _, _ => ""
    let held :=
      if lanes.blocking then
        "The lane review still holds this work order -- " ++ "; ".intercalate lanes.reasons ++
          ". See `ds review --status --work-order " ++ resolved ++ "`. "
      else ""
    return {
      ready := info.state = .passed && !lanes.blocking
      state := info.state
      workOrderId := some resolved
      reason := info.reason
      summary := info.summary
      execution := info.execution
      laneReview := some (lanes.dispatched, lanes.blocking, lanes.reasons)
      advice := held ++ info.state.advice ++ caveat }

end Merge

end DreamStudio.WorkOrders
