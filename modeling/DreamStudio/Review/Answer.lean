import DreamStudio.Library.Json
import Mathlib.Data.List.Dedup
import Mathlib.Data.List.Sort

namespace DreamStudio.Review

open Library

/-- `LANE_VERDICTS`. -/
inductive Verdict
  | pass
  | finding
  | cannotTell
  deriving DecidableEq

namespace Verdict

def all : List Verdict := [.pass, .finding, .cannotTell]

def text : Verdict → String
  | .pass => "pass"
  | .finding => "finding"
  | .cannotTell => "cannot-tell"

def ofText (s : String) : Option Verdict := all.find? fun v => v.text = s

/-- `TESTED_VERDICTS`. -/
def tested : Verdict → Bool
  | .pass => true
  | .finding => true
  | .cannotTell => false

end Verdict

/-- `METHOD_VOCABULARY`. -/
inductive Method
  | enumeratePairedSites
  | proveTheBreak
  | fetchAuthoritativeDocs
  | verifyCitedRecords
  deriving DecidableEq

/-- What a container run is claimed or seen to do: `exit_code` as the reviewer wrote it. -/
structure Reproduction where
  command : String
  exitCode : Json

/-- An answer as `validate_answers` accepts it. A list it leaves out is empty. -/
structure Answer where
  lane : String
  verdict : Verdict
  evidence : String
  why : String
  check : String
  declare_ : String
  resolvesWith : Option String := none
  environmentGap : Option String := none
  reproduction : Option Reproduction := none
  pairedSites : List String := []
  counterfactual : Option Reproduction := none
  docsConsulted : List String := []
  citationsVerified : List String := []

structure Run where
  exitCode : Option Int
  timedOut : Bool := false
  outputSha256 : String := ""
  outputTail : String := ""
  deriving DecidableEq

structure Refusal where
  lane : String
  reason : String
  run : Option Run := none

section Validate

variable (repr : Json → String)

/-- `str(raw.get(key, "") or "").strip()`. -/
def field (raw : List (String × Json)) (key : String) : String :=
  pyStrip (((Json.lookup raw key).or (.str "")).pyStr repr)

/-- `[str(s).strip() for s in value if str(s).strip()] if isinstance(value, list) else []`. -/
def named : Json → List String
  | .arr xs => (xs.map fun x => pyStrip (x.pyStr repr)).filter (· ≠ "")
  | _ => []

/-- A `reproduction` or a `counterfactual`, if it is an object. -/
def reproductionOf : Json → Option Reproduction
  | .obj fields => some { command := field repr fields "command", exitCode := Json.lookup fields "exit_code" }
  | _ => none

/-- `isinstance(code, int) and not isinstance(code, bool)`. -/
def isInt : Json → Bool
  | .int _ => true
  | _ => false

def sameInt : Json → Json → Bool
  | .int m, .int n => m = n
  | _, _ => false

def pairedSitesGap (raw : List (String × Json)) : List String :=
  if (named repr (Json.lookup raw "paired_sites")).length < 2 then
    ["enumerate_paired_sites: `paired_sites` must list at least two specific sites actually inspected (a file:line or symbol each), not just the one site the diff touched -- checking siblings is the whole point"]
  else []

def proveTheBreakGap (raw : List (String × Json)) (reproduction : Option Reproduction) :
    List String :=
  let missing :=
    ["prove_the_break: a pass needs `counterfactual` naming the command run against the mutated or bypassed guard and the exit_code it produced -- a pass that only re-runs the happy path never showed what breaking the guard looks like"]
  match reproductionOf repr (Json.lookup raw "counterfactual") with
  | none => missing
  | some counterfactual =>
    if counterfactual.command = "" then missing
    else if !isInt counterfactual.exitCode then
      ["prove_the_break: `counterfactual.exit_code` must be an integer"]
    else if reproduction.any fun r => sameInt counterfactual.exitCode r.exitCode then
      ["prove_the_break: `counterfactual.exit_code` is identical to the reproduction's own exit_code -- a counterfactual that behaves the same as the guarded case proves nothing broke"]
    else []

def docsGap (raw : List (String × Json)) : List String :=
  if named repr (Json.lookup raw "docs_consulted") = [] then
    ["fetch_authoritative_docs: `docs_consulted` must name at least one document or URL actually fetched for this lane, not reasoned from training-data memory"]
  else []

def citationsGap (raw : List (String × Json)) : List String :=
  if named repr (Json.lookup raw "citations_verified") = [] then
    ["verify_cited_records: this answer's `evidence` cites a record, so `citations_verified` must name each one actually opened and confirmed -- a citation taken on trust is exactly what this technique exists to refuse"]
  else []

/-- `_method_gaps`. -/
def methodGaps (raw : List (String × Json)) (verdict : Verdict) (required : List Method)
    (reproduction : Option Reproduction) : List String :=
  (if .enumeratePairedSites ∈ required then pairedSitesGap repr raw else []) ++
    (if .proveTheBreak ∈ required ∧ verdict = .pass then proveTheBreakGap repr raw reproduction
      else []) ++
    (if .fetchAuthoritativeDocs ∈ required then docsGap repr raw else []) ++
    (if .verifyCitedRecords ∈ required ∧ field repr raw "evidence" ≠ "" then citationsGap repr raw
      else [])

def testedGap (verdict : Verdict) (reproduction : Option Reproduction) : Option String :=
  if !verdict.tested then none
  else
    let missing :=
      "a " ++ verdict.text ++
        " must carry a reproduction -- the command you ran in the lane container and the exit_code it returned. Reading alone can only answer cannot-tell."
    match reproduction with
    | none => some missing
    | some r =>
      if r.command = "" then some missing
      else if !isInt r.exitCode then
        some "the reproduction must report the integer exit_code it saw"
      else none

/-- `sorted(set(xs))`. -/
def sortedSet (xs : List String) : List String := xs.dedup.insertionSort (· ≤ ·)

/-- The body of the loop of `validate_answers`; `seen` are the lanes accepted so far. -/
def validateAnswer (reviewer : String) (assigned : List String)
    (methodRequirements : String → List Method) (seen : List String) (raw : Json) :
    Except Refusal Answer :=
  match raw with
  | .obj fields =>
    let lane := field repr fields "lane"
    let evidence := field repr fields "evidence"
    let why := field repr fields "why"
    let resolvesWith := field repr fields "resolves_with"
    let environmentGap := field repr fields "environment_gap"
    let reproduction := reproductionOf repr (Json.lookup fields "reproduction")
    if lane = "" then .error { lane := "(missing)", reason := "no lane id on the answer" }
    else if lane ∉ assigned then
      let lanes := ", ".intercalate (sortedSet assigned)
      .error {
        lane := lane
        reason := reviewer ++ " was not dispatched this lane this round. Its lanes: " ++
          (if lanes = "" then "(none)" else lanes) }
    else if lane ∈ seen then .error { lane := lane, reason := "answered twice in one submission" }
    else
      match Verdict.ofText (field repr fields "verdict") with
      | none =>
        .error {
          lane := lane
          reason := "verdict " ++ repr (.str (field repr fields "verdict")) ++ " is not one of " ++
            ", ".intercalate (Verdict.all.map (·.text)) }
      | some verdict =>
        if verdict = .finding ∧ evidence = "" then
          .error {
            lane := lane
            reason :=
              "a finding with no evidence is an opinion -- say what the reproduction's output shows and where the defect is" }
        else if verdict = .cannotTell ∧ why = "" ∧ evidence = "" then
          .error { lane := lane, reason := "cannot-tell must say what would have been needed" }
        else
          match testedGap verdict reproduction with
          | some reason => .error { lane := lane, reason := reason }
          | none =>
            let gaps := methodGaps repr fields verdict (methodRequirements lane) reproduction
            if gaps ≠ [] then .error { lane := lane, reason := "; ".intercalate gaps }
            else
              .ok {
                lane := lane, verdict := verdict, evidence := evidence, why := why
                check := field repr fields "check", declare_ := field repr fields "declare"
                resolvesWith := if resolvesWith ≠ "" ∧ verdict = .pass then
                  some resolvesWith else none
                environmentGap := if environmentGap ≠ "" then some environmentGap else none
                reproduction := reproduction
                pairedSites := named repr (Json.lookup fields "paired_sites")
                counterfactual :=
                  (reproductionOf repr (Json.lookup fields "counterfactual")).filter
                    (·.command ≠ "")
                docsConsulted := named repr (Json.lookup fields "docs_consulted")
                citationsVerified := named repr (Json.lookup fields "citations_verified") }
  | v => .error { lane := "(malformed)", reason := "not an object: " ++ repr v }

/-- `validate_answers`: the accepted answers and the refusals, in the order of the submission. -/
def validateAnswers (reviewer : String) (assigned : List String)
    (methodRequirements : String → List Method) (answers : List Json) :
    List Answer × List Refusal :=
  answers.foldl
    (fun (accepted, refused) raw =>
      match validateAnswer repr reviewer assigned methodRequirements
        (accepted.map (·.lane)) raw with
      | .ok answer => (accepted ++ [answer], refused)
      | .error refusal => (accepted, refused ++ [refusal]))
    ([], [])

end Validate

section Accepted

variable {repr : Json → String} {reviewer : String} {assigned : List String}
  {methodRequirements : String → List Method}

/-- What an accepted answer promises. -/
structure Answer.Sound (assigned : List String) (a : Answer) : Prop where
  assigned : a.lane ∈ assigned
  tested : a.verdict.tested = true →
    ∃ r n, a.reproduction = some r ∧ r.command ≠ "" ∧ r.exitCode = .int n

theorem validateAnswer_ok {seen : List String} {raw : Json} {a : Answer}
    (h : validateAnswer repr reviewer assigned methodRequirements seen raw = .ok a) :
    a.Sound assigned ∧ a.lane ∉ seen := by
  unfold validateAnswer at h
  split at h
  next fields =>
    simp only at h
    split at h
    · cases h
    next =>
      split at h
      · cases h
      next sent =>
        split at h
        · cases h
        next once =>
          split at h
          · cases h
          next verdict _ =>
            split at h
            · cases h
            next =>
              split at h
              · cases h
              next =>
                split at h
                · cases h
                next tested =>
                  split at h
                  · cases h
                  next =>
                    cases h
                    refine ⟨⟨by simpa using sent, fun isTested => ?_⟩, once⟩
                    simp only at isTested ⊢
                    unfold testedGap at tested
                    rw [isTested] at tested
                    cases hr : reproductionOf repr (Json.lookup fields "reproduction") with
                    | none => simp [hr] at tested
                    | some r =>
                      simp only [hr, Bool.not_true, Bool.false_eq_true, if_false] at tested
                      split at tested
                      · cases tested
                      next command =>
                        split at tested
                        · cases tested
                        next isNumber =>
                          cases code : r.exitCode with
                          | int n => exact ⟨r, n, rfl, command, code⟩
                          | _ => simp [code, isInt] at isNumber
  · cases h

theorem validateAnswers_sound (answers : List Json) :
    (∀ a ∈ (validateAnswers repr reviewer assigned methodRequirements answers).1,
        a.Sound assigned) ∧
      ((validateAnswers repr reviewer assigned methodRequirements answers).1.map
        (·.lane)).Nodup := by
  unfold validateAnswers
  suffices ∀ accepted refused, (∀ a ∈ accepted, a.Sound assigned) → (accepted.map (·.lane)).Nodup →
      let result := answers.foldl
        (fun (accepted, refused) raw =>
          match validateAnswer repr reviewer assigned methodRequirements
            (accepted.map (·.lane)) raw with
          | .ok answer => (accepted ++ [answer], refused)
          | .error refusal => (accepted, refused ++ [refusal]))
        ((accepted, refused) : List Answer × List Refusal)
      (∀ a ∈ result.1, a.Sound assigned) ∧ (result.1.map (·.lane)).Nodup from
    this [] [] (by simp) (by simp)
  induction answers with
  | nil => exact fun _ _ sound nodup => ⟨sound, nodup⟩
  | cons raw rest ih =>
    intro accepted refused sound nodup
    simp only [List.foldl_cons]
    cases outcome : validateAnswer repr reviewer assigned methodRequirements
      (accepted.map (·.lane)) raw with
    | error refusal => exact ih accepted (refused ++ [refusal]) sound nodup
    | ok a =>
      obtain ⟨here, once⟩ := validateAnswer_ok outcome
      refine ih (accepted ++ [a]) refused ?_ ?_
      · intro b hb
        rcases List.mem_append.mp hb with hb | hb
        · exact sound b hb
        · exact List.mem_singleton.mp hb ▸ here
      · rw [List.map_append]
        refine List.nodup_append.mpr ⟨nodup, List.nodup_singleton _, ?_⟩
        rintro l hl _ hl' rfl
        have same : l = a.lane := List.mem_singleton.mp hl'
        exact once (same ▸ hl)

end Accepted

end DreamStudio.Review
