import DreamStudio.Library.Except
import DreamStudio.Review.Ledger

namespace DreamStudio.Review

open Library

/-- What both doors read that the ledger does not hold. -/
structure Env where
  workOrderId : String
  credentialHash : String → String
  repr : Json → String

/-- The arguments of `record_dispatch`, the tokens it draws and the clock and the write as it finds
them. -/
structure Request where
  sha : String
  image : String
  changeSet : Json
  assignments : List Slot
  owned : Dict String (List String)
  models : Dict String String
  forceNewRound : Bool := false
  token : String → String
  now : String
  write : Except String Unit := .ok ()

inductive DispatchResponse
  | alreadyDispatched (prior : Dispatch) (note : String)
  | opened (doc : Dispatch) (credentials : Dict String String)

def alreadyDispatchedResponse (prior : Dispatch) (sha : String) : DispatchResponse :=
  .alreadyDispatched prior
    ("round " ++ toString prior.round ++ " already dispatched at this commit (" ++
      String.ofList (sha.toList.take 12) ++
      ") -- no new round opened, no image rebuilt, no credentials reissued. A credential is shown once, in its own round's dispatch response, and is never stored anywhere that could return it again. Pass force_new_round=True for a fresh round and fresh credentials.")

abbrev Slots := Dict String Slot

/-- A lane carried to the slot of its owner; `fresh` is the slot an owner without one gets. -/
def carry (fresh : Slot) (key lane : String) (state : Slots × List String) : Slots × List String :=
  let slot := (Dict.get state.1 key).getD fresh
  if lane ∉ slot.lanes then
    (Dict.set state.1 key { slot with lanes := (slot.lanes ++ [lane]).insertionSort (· ≤ ·) },
      state.2 ++ [lane])
  else (Dict.set state.1 key slot, state.2)

def requestedSlots (assignments : List Slot) : Slots :=
  assignments.foldl
    (fun slots slot =>
      Dict.set slots (ownerKey slot.reviewer slot.seat)
        { reviewer := slot.reviewer, seat := slot.seat, lanes := sortedSet slot.lanes })
    []

def carryFindings (findings : List (String × Standing)) (state : Slots × List String) :
    Slots × List String :=
  findings.foldl
    (fun state finding =>
      carry { reviewer := some finding.1, seat := none, lanes := [] }
        (ownerKey (some finding.1) none)
        finding.2.lane state)
    state

def refereeOwner (owned : Dict String (List String)) : Option String :=
  (owned.find? fun item => refereeLane ∈ item.2).map (·.1)

def ownerSlot (key : String) : Slot :=
  if startsWith key "seat:" then
    { reviewer := none, seat := some (removePrefix key "seat:"), lanes := [] }
  else { reviewer := some key, seat := none, lanes := [] }

def noReferee : String :=
  "a finding was resolved by a replacement test and no seat owns '" ++ refereeLane ++
    "' to judge whether that test exercises the defect"

def carryReferee (awaiting : List Filed) (owned : Dict String (List String))
    (state : Slots × List String) : Except String (Slots × List String) :=
  if awaiting = [] then .ok state
  else
    match refereeOwner owned with
    | none => .error noReferee
    | some referee => .ok (carry (ownerSlot referee) referee refereeLane state)

def pinModel (models : Dict String String) (slot : Slot) : Slot :=
  match slot.seat with
  | some seat =>
    if seat ≠ "" then
      match Dict.get models seat with
      | some model => { slot with model := some model }
      | none => slot
    else slot
  | none => slot

/-- `key=lambda s: (s["reviewer"] is None, str(s["reviewer"]))`. -/
def bySlotReviewer (a b : Slot) : Bool :=
  match a.reviewer, b.reviewer with
  | some r, some s => r ≤ s
  | some _, none => true
  | none, some _ => false
  | none, none => true

def arrange (models : Dict String String) (slots : Slots) : List Slot :=
  ((slots.map (·.2)).map (pinModel models)).insertionSort fun a b => bySlotReviewer a b

/-- `resolve_round_content`: the assignments and the carried lanes of a round. -/
def resolveRoundContent (l : Ledger) (assignments : List Slot) (owned : Dict String (List String))
    (models : Dict String String) : Except String (List Slot × List String) := do
  let found := carryFindings (openFindings l) (requestedSlots assignments, [])
  let (slots, carried) ← carryReferee (awaitingReferee l) owned found
  return (arrange models slots, carried.insertionSort (· ≤ ·))

/-- `sorted(set(slot.get("lanes") or []) - set(owned.get(key, ())))`. -/
def strayLanes (owned : Dict String (List String)) (slot : Slot) : List String :=
  (sortedSet slot.lanes).filter
    (· ∉ (Dict.get owned (ownerKey slot.reviewer slot.seat)).getD [])

def checkOwnership (owned : Dict String (List String)) (slot : Slot) : Except String Unit :=
  let stray := strayLanes owned slot
  let name := match slot.reviewer with
    | some r => if r ≠ "" then r else "the chair"
    | none => "the chair"
  if stray ≠ [] then
    .error (name ++ " does not own " ++ ", ".intercalate stray ++
      " in the lane registry. A dispatch may only hand a reviewer its own seat's lanes -- anything else lets a name answer a question it was never compiled to ask.")
  else .ok ()

def issueCredentials (token : String → String) (assignments : List Slot) : Dict String String :=
  assignments.foldl
    (fun credentials slot =>
      match slot.reviewer with
      | some r => if r ≠ "" then Dict.set credentials r (token r) else credentials
      | none => credentials)
    []

def Ledger.nextRound (l : Ledger) : Nat := (l.dispatch.map (·.round + 1)).getD 1

def openRound (env : Env) (l : Ledger) (q : Request) (assignments : List Slot)
    (carried : List String) : Dispatch :=
  {
    credentialHashes :=
      (issueCredentials q.token assignments).map fun (name, c) => (name, env.credentialHash c)
    round := l.nextRound, sha := q.sha, image := q.image, changeSet := q.changeSet
    assignments := assignments, carriedOpenFindings := carried, at_ := q.now }

def Request.repeats (q : Request) (prior : Dispatch) (assignments : List Slot)
    (carried : List String) : Bool :=
  !q.forceNewRound && prior.sha = q.sha && prior.assignments = assignments &&
    prior.carriedOpenFindings = carried

/-- `record_dispatch`; an error is a raise, which stores nothing. -/
def recordDispatch (env : Env) (l : Ledger) (q : Request) :
    Except String (DispatchResponse × Ledger) := do
  if l.project = none then
    throw ("no work order " ++ env.repr (.str env.workOrderId) ++ " in this authority")
  q.assignments.forM (checkOwnership q.owned)
  let (assignments, carried) ← resolveRoundContent l q.assignments q.owned q.models
  match l.dispatch.filter (q.repeats · assignments carried) with
  | some prior => return (alreadyDispatchedResponse prior q.sha, l)
  | none =>
    let doc := openRound env l q assignments carried
    q.write
    return (.opened doc (issueCredentials q.token assignments), { l with dispatch := some doc })

end DreamStudio.Review
