import DreamStudio.Library.Dict
import DreamStudio.Review.Answer
import Mathlib.Algebra.GroupWithZero.Nat

namespace DreamStudio.Review

open Library

/-- The `run` of a stored answer. -/
structure RunRecord where
  exitCode : Option Int
  outputSha256 : Option String
  outputTail : String
  image : String

/-- A `resolution_run`: the finding's own test run again, or a replacement for it. -/
inductive Resolution
  | own (command : String) (exitCode : Option Int) (outputSha256 : Option String) (image : String)
  | replacement (command : String) (exitCodeBefore : Option Int) (imageBefore : String)
      (exitCode : Option Int) (image : String)

def Resolution.isReplacement : Resolution → Bool
  | .own .. => false
  | .replacement .. => true

structure Entry where
  answer : Answer
  run : Option RunRecord := none
  resolutionRun : Option Resolution := none

def Entry.lane (e : Entry) : String := e.answer.lane

def Entry.verdict (e : Entry) : Verdict := e.answer.verdict

structure Submission where
  round : Nat
  at_ : String
  lanes : List Entry

structure Slot where
  reviewer : Option String
  seat : Option String
  lanes : List String
  model : Option String := none
  deriving DecidableEq

structure Dispatch where
  credentialHashes : Dict String String
  round : Nat
  sha : String
  image : String
  changeSet : Json
  assignments : List Slot
  carriedOpenFindings : List String
  at_ : String

theorem noDocs_unique : (Dict.keys ([] : Dict String (List Submission))).Nodup := List.nodup_nil

structure Ledger where
  project : Option String
  dispatch : Option Dispatch := none
  docs : Dict String (List Submission) := []
  unique : (Dict.keys docs).Nodup := by first | exact DreamStudio.Review.noDocs_unique | decide

def refereeLane : String := "evidence-referee"

def chairSeat : String := "Chair and verdict owner"

/-- The submissions of `_reviewer_doc`. -/
def Ledger.history (l : Ledger) (reviewer : String) : List Submission :=
  (Dict.get l.docs reviewer).getD []

def Ledger.write (l : Ledger) (reviewer : String) (submissions : List Submission) : Ledger :=
  { l with
    docs := Dict.set l.docs reviewer submissions
    unique := Dict.keys_set_nodup l.unique reviewer submissions }

/-- `_owner_key`. -/
def ownerKey (reviewer seat : Option String) : String :=
  match reviewer with
  | some r => if r ≠ "" then r else "seat:" ++ seat.getD "None"
  | none => "seat:" ++ seat.getD "None"

/-- `dispatched_lanes`. -/
def dispatchedLanes (dispatch : Option Dispatch) (reviewer : String) : List String :=
  match dispatch with
  | some d => ((d.assignments.find? fun slot => slot.reviewer = some reviewer).map (·.lanes)).getD
    []
  | none => []

/-- The answer that stands on a lane. -/
structure Standing where
  entry : Entry
  round : Nat
  resolvesFindingFromRound : Option Nat := none
  cannotTellRounds : List Nat := []

def Standing.lane (s : Standing) : String := s.entry.lane

def Standing.verdict (s : Standing) : Verdict := s.entry.verdict

def Standing.isFinding (s : Standing) : Bool := s.verdict = .finding

/-- What stands on a lane after one more answer: a finding is displaced by a pass or another
finding, a cannot-tell is only noted on it. -/
def advance (round : Nat) (standing : Option Standing) (entry : Entry) : Standing :=
  match entry.verdict, standing.filter (·.isFinding) with
  | .cannotTell, some s => { s with cannotTellRounds := s.cannotTellRounds ++ [round] }
  | .pass, some s => { entry := entry, round := round, resolvesFindingFromRound := some s.round }
  | _, _ => { entry := entry, round := round }

def place (round : Nat) (current : Dict String Standing) (entry : Entry) : Dict String Standing :=
  Dict.set current entry.lane (advance round (Dict.get current entry.lane) entry)

/-- `_current_by_lane`. -/
def currentByLane (submissions : List Submission) : Dict String Standing :=
  submissions.foldl (fun current s => s.lanes.foldl (place s.round) current) []

structure Filed where
  reviewer : String
  round : Nat
  entry : Entry

/-- The loop over every reviewer's document, its submissions and their lanes. -/
def Ledger.filed (l : Ledger) : List Filed :=
  l.docs.flatMap fun (reviewer, submissions) =>
    submissions.flatMap fun s => s.lanes.map fun entry => ⟨reviewer, s.round, entry⟩

/-- `key=lambda e: (str(e.get("reviewer")), str(e.get("lane")))`. -/
def byReviewerLane {α : Type} (reviewer lane : α → String) (a b : α) : Prop :=
  reviewer a < reviewer b ∨ reviewer a = reviewer b ∧ lane a ≤ lane b

instance {α : Type} (reviewer lane : α → String) : DecidableRel (byReviewerLane reviewer lane) :=
  fun _ _ => inferInstanceAs (Decidable (_ ∨ _ ∧ _))

/-- `recorded_answers`: the answers that stand, each with its reviewer. -/
def recordedAnswers (l : Ledger) : List (String × Standing) :=
  (l.docs.flatMap fun (reviewer, submissions) =>
    (currentByLane submissions).map fun item => (reviewer, item.2)).insertionSort
    (byReviewerLane (·.1) (·.2.lane))

/-- `open_findings`. -/
def openFindings (l : Ledger) : List (String × Standing) :=
  (recordedAnswers l).filter (·.2.isFinding)

/-- `_answered_in_round`. -/
def answeredInRound (l : Ledger) (round : Nat) : List (String × String) :=
  (l.filed.filter (·.round = round)).map fun f => (f.reviewer, f.entry.lane)

def Filed.isRefereePass (f : Filed) : Bool := f.entry.lane = refereeLane ∧ f.entry.verdict = .pass

def Filed.isReplacement (f : Filed) : Bool := f.entry.resolutionRun.any (·.isReplacement)

def lastRefereeRound (l : Ledger) : Nat :=
  (l.filed.filter (·.isRefereePass)).foldl (fun last f => max last f.round) 0

/-- `awaiting_referee`. -/
def awaitingReferee (l : Ledger) : List Filed :=
  (l.filed.filter fun f => lastRefereeRound l ≤ f.round ∧ f.isReplacement).insertionSort
    (byReviewerLane (·.reviewer) (·.entry.lane))

structure ReviewStatus where
  dispatched : Bool
  round : Option Nat
  sha : Option String
  image : Option String
  unanswered : Dict String (List String)
  openFindings : List (String × Standing)
  cannotTell : List (String × Standing)
  resolved : List (String × Standing)
  awaitingReferee : List Filed
  chairLanes : List String
  seatModels : Dict String String
  reasons : List String
  blocking : Bool

def slotUnanswered (answered : List (String × String)) (unanswered : Dict String (List String))
    (slot : Slot) : Dict String (List String) :=
  match slot.reviewer with
  | none =>
    if slot.seat = some chairSeat then unanswered
    else Dict.set unanswered ("(no reviewer compiled for " ++ slot.seat.getD "None" ++ ")")
      slot.lanes
  | some reviewer =>
    let missing := slot.lanes.filter fun lane => (reviewer, lane) ∉ answered
    if missing ≠ [] then Dict.set unanswered reviewer missing else unanswered

def unansweredLanes (l : Ledger) (d : Dispatch) : Dict String (List String) :=
  d.assignments.foldl (slotUnanswered (answeredInRound l d.round)) []

def dispatchReasons (l : Ledger) : List String :=
  match l.dispatch with
  | none => ["no review has been dispatched for this work order"]
  | some d =>
    let unanswered := unansweredLanes l d
    let count := (unanswered.map (·.2.length)).sum
    if unanswered ≠ [] then
      [toString count ++ " dispatched lane(s) unanswered in round " ++ toString d.round]
    else []

def reasons (l : Ledger) : List String :=
  dispatchReasons l ++
    (if openFindings l ≠ [] then [toString (openFindings l).length ++ " open finding(s)"] else
      []) ++
    (if awaitingReferee l ≠ [] then
      [toString (awaitingReferee l).length ++
        " finding(s) resolved by a replacement test await the " ++ refereeLane ++
        " lane, which judges whether that test exercises the defect"]
    else [])

/-- `review_status`. -/
def reviewStatus (l : Ledger) : ReviewStatus where
  dispatched := l.dispatch.isSome
  round := l.dispatch.map (·.round)
  sha := l.dispatch.map (·.sha)
  image := l.dispatch.map (·.image)
  unanswered := (l.dispatch.map (unansweredLanes l)).getD []
  openFindings := openFindings l
  cannotTell := (recordedAnswers l).filter (·.2.verdict = .cannotTell)
  resolved := (recordedAnswers l).filter (·.2.resolvesFindingFromRound.any (· ≠ 0))
  awaitingReferee := awaitingReferee l
  chairLanes :=
    (((l.dispatch.map (·.assignments)).getD []).flatMap fun slot =>
      if slot.reviewer = none ∧ slot.seat = some chairSeat then slot.lanes else []).insertionSort
      (· ≤ ·)
  seatModels :=
    ((l.dispatch.map (·.assignments)).getD []).foldl
      (fun models slot =>
        match slot.seat, slot.model with
        | some seat, some model =>
          if seat ≠ "" ∧ model ≠ "" then Dict.set models seat model else models
        | _, _ => models)
      []
  reasons := reasons l
  blocking := reasons l ≠ []

section Write

variable (l : Ledger) (reviewer : String) (submissions : List Submission)

@[simp] theorem history_write (r : String) :
    (l.write reviewer submissions).history r =
      if r = reviewer then submissions else l.history r := by
  unfold Ledger.history Ledger.write
  rw [Dict.get_set]
  split <;> rfl

@[simp] theorem write_dispatch : (l.write reviewer submissions).dispatch = l.dispatch := rfl

@[simp] theorem write_project : (l.write reviewer submissions).project = l.project := rfl

end Write

theorem mem_docs_iff {l : Ledger} {reviewer : String} {submissions : List Submission} :
    (reviewer, submissions) ∈ l.docs ↔ Dict.get l.docs reviewer = some submissions :=
  ⟨Dict.get_of_mem l.unique, Dict.mem_of_get⟩

theorem mem_filed_iff {l : Ledger} {f : Filed} :
    f ∈ l.filed ↔ ∃ s ∈ l.history f.reviewer, s.round = f.round ∧ f.entry ∈ s.lanes := by
  simp only [Ledger.filed, List.mem_flatMap, List.mem_map, Prod.exists]
  constructor
  · rintro ⟨reviewer, submissions, doc, s, hs, entry, hentry, rfl⟩
    refine ⟨s, ?_, rfl, hentry⟩
    simpa [Ledger.history, mem_docs_iff.mp doc] using hs
  · rintro ⟨s, hs, round, hentry⟩
    cases doc : Dict.get l.docs f.reviewer with
    | none => simp [Ledger.history, doc] at hs
    | some submissions =>
      refine ⟨f.reviewer, submissions, mem_docs_iff.mpr doc, s, ?_, f.entry, hentry, ?_⟩
      · simpa [Ledger.history, doc] using hs
      · cases f
        cases round
        rfl

section Current

theorem get_place (round : Nat) (current : Dict String Standing) (entry : Entry) (lane : String) :
    Dict.get (place round current entry) lane =
      if lane = entry.lane then some (advance round (Dict.get current lane) entry)
      else Dict.get current lane := by
  unfold place
  rw [Dict.get_set]
  split
  next same => rw [same]
  next => rfl

@[simp] theorem advance_isFinding (round : Nat) (standing : Option Standing) (entry : Entry) :
    (advance round standing entry).isFinding =
      (decide (entry.verdict = .finding) ||
        decide (entry.verdict = .cannotTell) && standing.any (·.isFinding)) := by
  unfold advance
  cases standing with
  | none => cases h : entry.verdict <;> simp [Standing.isFinding, Standing.verdict, h]
  | some s =>
    by_cases finding : s.entry.verdict = .finding <;> cases h : entry.verdict <;>
      simp [Standing.isFinding, Standing.verdict, Option.filter, finding, h]

def entriesOf (submissions : List Submission) : List (Nat × Entry) :=
  submissions.flatMap fun s => s.lanes.map (s.round, ·)

theorem entriesOf_append (xs ys : List Submission) :
    entriesOf (xs ++ ys) = entriesOf xs ++ entriesOf ys := by
  simp [entriesOf]

theorem entriesOf_singleton (s : Submission) : entriesOf [s] = s.lanes.map (s.round, ·) := by
  simp [entriesOf]

theorem currentByLane_eq (submissions : List Submission) :
    currentByLane submissions =
      (entriesOf submissions).foldl (fun current x => place x.1 current x.2) [] := by
  unfold currentByLane entriesOf
  rw [List.foldl_flatMap]
  simp only [List.foldl_map]

def standingOn (lane : String) (entries : List (Nat × Entry)) : Option Standing :=
  (entries.filter (·.2.lane = lane)).foldl (fun standing x => some (advance x.1 standing x.2)) none

theorem get_currentByLane (submissions : List Submission) (lane : String) :
    Dict.get (currentByLane submissions) lane = standingOn lane (entriesOf submissions) := by
  rw [currentByLane_eq]
  unfold standingOn
  suffices ∀ current, Dict.get
      ((entriesOf submissions).foldl (fun current x => place x.1 current x.2) current) lane =
      ((entriesOf submissions).filter (·.2.lane = lane)).foldl
        (fun standing x => some (advance x.1 standing x.2)) (Dict.get current lane) from this []
  induction entriesOf submissions with
  | nil => exact fun _ => rfl
  | cons x xs ih =>
    intro current
    rw [List.foldl_cons, ih, get_place]
    by_cases here : x.2.lane = lane
    · rw [List.filter_cons_of_pos (by simpa using here), List.foldl_cons, if_pos here.symm]
    · rw [List.filter_cons_of_neg (by simpa using here), if_neg (Ne.symm here)]

theorem standingOn_append (lane : String) (xs ys : List (Nat × Entry)) :
    standingOn lane (xs ++ ys) =
      (ys.filter (·.2.lane = lane)).foldl (fun standing x => some (advance x.1 standing x.2))
        (standingOn lane xs) := by
  simp [standingOn, List.filter_append, List.foldl_append]

theorem standingOn_concat {lane : String} {x : Nat × Entry} (xs : List (Nat × Entry))
    (h : x.2.lane = lane) :
    standingOn lane (xs ++ [x]) = some (advance x.1 (standingOn lane xs) x.2) := by
  rw [standingOn_append, List.filter_cons_of_pos (by simpa using h)]
  rfl

theorem advance_lane {round : Nat} {standing : Option Standing} {entry : Entry}
    (h : ∀ s ∈ standing, s.lane = entry.lane) :
    (advance round standing entry).lane = entry.lane := by
  unfold advance
  split
  next s _ found => exact h s (Option.filter_eq_some_iff.mp found).1
  all_goals rfl

theorem standingOn_lane {lane : String} {entries : List (Nat × Entry)} {s : Standing}
    (h : standingOn lane entries = some s) : s.lane = lane := by
  induction entries using List.reverseRecOn generalizing s with
  | nil => cases h
  | append_singleton xs x ih =>
    by_cases here : x.2.lane = lane
    · rw [standingOn_concat xs here] at h
      cases h
      rw [advance_lane fun t ht => (ih ht).trans here.symm, here]
    · rw [standingOn_append, List.filter_cons_of_neg (by simpa using here)] at h
      exact ih h

theorem currentByLane_keys_nodup (submissions : List Submission) :
    (Dict.keys (currentByLane submissions)).Nodup := by
  rw [currentByLane_eq]
  induction entriesOf submissions using List.reverseRecOn with
  | nil => exact List.nodup_nil
  | append_singleton xs x ih =>
    rw [List.foldl_append]
    exact Dict.keys_set_nodup ih _ _

theorem mem_recordedAnswers_iff {l : Ledger} {reviewer : String} {s : Standing} :
    (reviewer, s) ∈ recordedAnswers l ↔
      standingOn s.lane (entriesOf (l.history reviewer)) = some s := by
  unfold recordedAnswers
  rw [List.mem_insertionSort]
  simp only [List.mem_flatMap, List.mem_map, Prod.exists, Prod.mk.injEq]
  constructor
  · rintro ⟨_, submissions, doc, lane, _, item, rfl, rfl⟩
    have found := Dict.get_of_mem (currentByLane_keys_nodup submissions) item
    rw [get_currentByLane] at found
    rw [standingOn_lane found]
    simpa [Ledger.history, mem_docs_iff.mp doc] using found
  · intro found
    cases doc : Dict.get l.docs reviewer with
    | none => simp [Ledger.history, doc, entriesOf, standingOn] at found
    | some submissions =>
      simp only [Ledger.history, doc, Option.getD_some, ← get_currentByLane] at found
      exact ⟨reviewer, submissions, mem_docs_iff.mpr doc, s.lane, s,
        Dict.mem_of_get found, rfl, rfl⟩

theorem mem_openFindings_iff {l : Ledger} {reviewer : String} {s : Standing} :
    (reviewer, s) ∈ openFindings l ↔
      standingOn s.lane (entriesOf (l.history reviewer)) = some s ∧ s.isFinding = true := by
  rw [openFindings, List.mem_filter, mem_recordedAnswers_iff]

end Current

section Referee

theorem le_foldl_max {α : Type} (f : α → Nat) (xs : List α) (start : Nat) :
    ∀ n, xs.foldl (fun last x => max last (f x)) start ≤ n ↔ start ≤ n ∧ ∀ x ∈ xs, f x ≤ n := by
  induction xs generalizing start with
  | nil => simp
  | cons x xs ih =>
    intro n
    rw [List.foldl_cons, ih, List.forall_mem_cons, Nat.max_le, and_assoc]

theorem lastRefereeRound_le_iff {l : Ledger} {n : Nat} :
    lastRefereeRound l ≤ n ↔ ∀ f ∈ l.filed, f.isRefereePass = true → f.round ≤ n := by
  unfold lastRefereeRound
  rw [le_foldl_max]
  simp

theorem mem_awaitingReferee_iff {l : Ledger} {f : Filed} :
    f ∈ awaitingReferee l ↔ f ∈ l.filed ∧ f.isReplacement = true ∧
      ∀ g ∈ l.filed, g.isRefereePass = true → g.round ≤ f.round := by
  unfold awaitingReferee
  rw [List.mem_insertionSort, List.mem_filter, ← lastRefereeRound_le_iff]
  simp [and_comm]

theorem blocking_of_awaitingReferee {l : Ledger} (h : awaitingReferee l ≠ []) :
    (reviewStatus l).blocking = true := by
  simp [reviewStatus, reasons, h]

end Referee

end DreamStudio.Review
