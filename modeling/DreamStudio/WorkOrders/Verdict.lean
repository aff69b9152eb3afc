import DreamStudio.Library.Except
import DreamStudio.Library.Json

namespace DreamStudio.WorkOrders

open Library

/-- What the gates use of Python's library. `search` gives the groups of the first match of a
pattern that has its flags in it, `int` reads a run of digits, `sortByFloat` orders pairs by
`float(pair[1])`, `fixed` is `format(float(value), ".2f")`. -/
structure Stdlib where
  loads : String → Except String Json
  repr : Json → String
  search : String → String → Option (List String)
  int : String → Except String Int
  upper : String → String
  lower : String → String
  sortByFloat : List (String × Json) → Except String (List (String × Json))
  fixed : Json → Except String String

def objection (gate text : String) : String := gate ++ ":" ++ " " ++ text

/-- `s[:n]`. -/
def pyTake (n : Nat) (s : String) : String := String.ofList (s.toList.take n)

/-- `value.get(key)`; only an object has one. -/
def attrGet (value : Json) (key : String) : Except String Json :=
  match value with
  | .obj fields => .ok (Json.lookup fields key)
  | v => .error ("'" ++ v.pyType ++ "' object has no attribute 'get'")

/-- `value.get(key, default)`. -/
def attrGetD (value : Json) (key : String) (default : Json) : Except String Json :=
  match value with
  | .obj fields => .ok (Json.lookupD fields key default)
  | v => .error ("'" ++ v.pyType ++ "' object has no attribute 'get'")

/-- `value.strip()`. -/
def attrStrip : Json → Except String String
  | .str s => .ok (pyStrip s)
  | v => .error ("'" ++ v.pyType ++ "' object has no attribute 'strip'")

/-- What `for item in value` goes over. -/
def iterate : Json → Except String (List Json)
  | .arr xs => .ok xs
  | .obj fields => .ok (fields.map fun f => .str f.1)
  | .str s => .ok (s.toList.map fun c => .str (String.ofList [c]))
  | v => .error ("'" ++ v.pyType ++ "' object is not iterable")

/-- `separator.join(items)`. -/
def joinStrs (separator : String) (items : List Json) : Except String String := do
  let texts ← items.zipIdx.mapM fun (item, i) =>
    match item with
    | .str s => .ok s
    | v =>
      .error ("sequence item " ++ toString i ++ ": expected str instance, " ++ v.pyType ++ " found")
  return separator.intercalate texts

/-- `isinstance(value, (int, float))`. -/
def isNumber : Json → Bool
  | .int _ => true
  | .float _ => true
  | .bool _ => true
  | _ => false

/-- `isinstance(value, int) and value > 0`. -/
def isPositiveInt : Json → Bool
  | .int n => 0 < n
  | .bool b => b
  | _ => false

def listOf : Json → List Json
  | .arr xs => xs
  | _ => []

/-- An envelope's fields, less its `content`. -/
abbrev Envelope := List (String × Json)

def envelopeMarker : String := "__ds_envelope__"

/-- `unwrap`. -/
def unwrap (py : Stdlib) (stored : Option String) : Option String × Option Envelope :=
  match stored with
  | none => (none, none)
  | some stored =>
    if !startsWith (String.ofList (stored.toList.dropWhile pySpace)) "\x7b" then (some stored, none)
    else
      match py.loads stored with
      | .ok (.obj fields) =>
        if !Json.hasKey fields envelopeMarker then (some stored, none)
        else
          let envelope := fields.filter fun f => f.1 ≠ "content"
          match Json.lookup fields "content" with
          | .str content => (some content, some envelope)
          | _ => (some stored, some envelope)
      | _ => (some stored, none)

section Verdict

variable (py : Stdlib)

/-- `verdict_is_operator_attested`. -/
def verdictIsOperatorAttested (verdict : Json) : Except String Bool := do
  if !(← attrGet verdict "passed").truthy then return false
  match ← attrGet verdict "certification_basis" with
  | .str basis => return basis = "operator_attested"
  | _ => return false

/-- `_VERDICT_ROLES`. -/
def verdictRoles : List String := ["completion", "correctness", "quality", "falsification"]

/-- `verdict_execution_note`. -/
def verdictExecutionNote (verdict : Json) : Except String String := do
  match ← attrGet verdict "test_execution" with
  | .obj execution =>
    let registered := Json.lookup execution "registered"
    if !isPositiveInt registered then return ""
    if let .str "executed" := Json.lookup execution "basis" then return ""
    let first :=
      match Json.lookup execution "unexecuted" with
      | .arr (.obj check :: _) =>
        let reason := pyStrip (((Json.lookup check "reason").or (.str "")).pyStr py.repr)
        if reason = "" then "" else " First: " ++ pyTake 160 reason
      | _ => ""
    return " CHECKS NOT EXECUTED: " ++ registered.pyStr py.repr ++
      " TEST-CHECK(s) are registered " ++
      "and " ++ (Json.lookupD execution "executed" (.int 0)).pyStr py.repr ++
        " ran, so this verdict " ++
      "rests on reading rather than execution and its pass/fail for those criteria is unverified." ++
      first
  | _ => return ""

/-- `verdict_score_line`. -/
def verdictScoreLine (verdict : Json) : Except String String := do
  match ← attrGet verdict "scores" with
  | .obj scores =>
    let parts := verdictRoles.filterMap fun role =>
      let score := Json.lookup scores (role ++ "_score")
      if isNumber score then some (role, score) else none
    if parts.isEmpty then return ""
    let ranked := ", ".intercalate (← (← py.sortByFloat parts).mapM fun part =>
      (fun value => part.1 ++ " " ++ value) <$> py.fixed part.2)
    let composite := Json.lookup scores "composite_score"
    if isNumber composite then
      return ranked ++ " (composite " ++ (← py.fixed composite) ++ ")"
    return ranked
  | _ => return ""

def roleSummary (verdict : Json) : List String → Except String String
  | [] => .ok ""
  | role :: roles => do
    match ← attrGet verdict role with
    | .obj part =>
      let text ← attrStrip ((Json.lookup part "summary").or (.str ""))
      if text ≠ "" then return text
      roleSummary verdict roles
    | _ => roleSummary verdict roles

/-- `verdict_evidence`. -/
def verdictEvidence (verdict : Json) : Except String (String × List Json) := do
  let stated ← attrStrip ((← attrGet verdict "summary").or (.str ""))
  let summary ←
    if stated ≠ "" then pure stated
    else
      let scores :=
        match ← attrGet verdict "scores" with
        | .obj scores => scores
        | _ => []
      -- a role without a score ranks with the best
      let rank := fun role =>
        let score := Json.lookup scores (role ++ "_score")
        if isNumber score then score else .int 1
      let ranked ← py.sortByFloat (verdictRoles.map fun role => (role, rank role))
      roleSummary verdict (ranked.map (·.1))
  let mut findings : List Json := []
  for key in ["failure_reasons", "gaps", "spawned_work_orders"] do
    findings := findings ++ listOf (← attrGet verdict key)
  for role in verdictRoles do
    match ← attrGet verdict role with
    | .obj part => findings := findings ++ listOf (Json.lookup part "violations")
    | _ => pure ()
  return (summary, findings)

def firstObjection (findings : List Json) : String :=
  let states := fun fields : List (String × Json) =>
    (Json.lookup fields "detail").or (Json.lookup fields "rule")
  let stated := findings.findSome? fun finding =>
    match finding with
    | .obj fields => if (states fields).truthy then some fields else none
    | _ => none
  match stated with
  | none => ""
  | some fields =>
    let site := ":".intercalate (["file", "line"].filterMap fun key =>
      let value := Json.lookup fields key
      if value.truthy then some (value.pyStr py.repr) else none)
    let detail := pyStrip (((states fields).or (.str "")).pyStr py.repr)
    if detail = "" then ""
    else
      " First objection" ++ (if site = "" then "" else " (" ++ site ++ ")") ++ ": " ++
        pyTake 300 detail

def convenedNoLane (workOrderId : String) (verdict : Json) : Except String (Option String) := do
  if ← verdictIsOperatorAttested verdict then return none
  let table := (← attrGet verdict "round_table").or (.obj [])
  if (← attrGet table "seats").truthy then return none
  let why := (← attrGet table "unavailable").or
    (.str ("the verdict carries no round-table section " ++
    "at all, so it predates the table or was produced by something that does not convene it"))
  return some (objection "independent_review" ("the review convened no lane — " ++
    why.pyStr py.repr ++ ". A verdict with no lens is a score with no provenance. Re-run: ds " ++
    "work-order verify " ++ workOrderId))

def gapMessage (verdict : Json) : Except String String := do
  let spawned ← iterate (← attrGetD verdict "spawned_work_orders" (.arr []))
  let gapIds ← spawned.mapM fun w => attrGetD w "work_order_id" (.str "")
  if gapIds.isEmpty then return ""
  return " Gap WOs: " ++ (← joinStrs ", " gapIds)

def reviewFailure (workOrderId : String) (verdict : Json) : Except String String := do
  if (← attrGet verdict "unreviewable").truthy then
    let inner := (← attrGet verdict "unreviewable_reason").or (.str ("no commit evidence found; " ++
      "review manually or ensure commits carry the WO id / Work-Order: trailer"))
    return objection "independent_review" ("unreviewable — " ++ inner.pyStr py.repr)
  let gapMsg ← gapMessage verdict
  let (summary, reasons) ← verdictEvidence py verdict
  let scores ← verdictScoreLine py verdict
  if summary = "" ∧ reasons.isEmpty then
    return objection "independent_review"
      ("UNREVIEWABLE — the stored verdict says passed=False but " ++
      "carries no summary and no failure reasons, which is an incomplete record rather than a review " ++
      "that failed (a verify killed mid-write leaves exactly this). Re-run: ds work-order verify " ++
      workOrderId)
  let note ← verdictExecutionNote py verdict
  return objection "independent_review" ("review failed" ++
    (if scores = "" then "" else " [" ++ scores ++ "]") ++ " — " ++
    (if summary = "" then "no summary" else summary) ++ "." ++
      firstObjection py reasons ++ gapMsg ++
    note)

/-- What the `independent_review` gate says of a verdict it could read; `none` is a pass. -/
def judgeVerdict (workOrderId : String) (verdict : Json) : Except String (Option String) := do
  match ← convenedNoLane py workOrderId verdict with
  | some reason => return some reason
  | none =>
    if (← attrGet verdict "passed").truthy then return none
    return some (← reviewFailure py workOrderId verdict)

end Verdict

end DreamStudio.WorkOrders
