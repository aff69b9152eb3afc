import DreamStudio.Library.Machine
import DreamStudio.WorkOrders.Mutations

namespace DreamStudio.WorkOrders

open Library Projections

structure PhaseChange where
  before : WorkOrderStatus
  after : WorkOrderStatus
  event : WorkOrderEventType
  blockedFrom : WorkOrderStatus
  deriving DecidableEq

/-- A work order and the calls on it. `blockedFrom` is the phase it last left for `blocked`. -/
structure Board where
  row : WorkOrderRow
  flights : List Flight := []
  blockedFrom : WorkOrderStatus := .inProgress
  changes : List PhaseChange := []

inductive Turn
  | call (c : Call)
  | consult (i : Nat)
  | write (i : Nat) (now : Now)

def Board.land (remembers : Bool) (s : Board) (u : Update) (now : Now) : Board :=
  let row := u.write remembers now s.row
  if row.status = s.row.status then { s with row := row }
  else {
    s with
    row := row
    blockedFrom := if row.status = .blocked then s.row.status else s.blockedFrom
    changes := s.changes ++ [⟨s.row.status, row.status, u.event, s.blockedFrom⟩] }

/-- The six writers on one work order, each read of the phase and each UPDATE a step of its own. -/
def lifecycle (remembers : Bool) (workOrderId : String) : Machine Board Turn where
  step s
    | .call c =>
      match c.check workOrderId s.row.status with
      | .proceeds f => some { s with flights := s.flights ++ [f] }
      | _ => some s
    | .consult i =>
      match s.flights[i]? with
      | some .recalling =>
        some { s with
          flights := s.flights.set i (.writing (Flight.recalling.update remembers s.row)) }
      | _ => none
    | .write i now =>
      match s.flights[i]? with
      | some (.writing u) =>
        let rest := { s with flights := s.flights.eraseIdx i }
        if u.finds s.row.status then some (rest.land remembers u now) else some rest
      | _ => none

inductive PhaseChange.Declared : PhaseChange → Prop
  | edge {c : PhaseChange} (h : c.after ∈ c.before.transitions) : c.Declared
  | block {c : PhaseChange} (from_open : c.before ∈ WorkOrderStatus.blockable)
      (h : c.after = .blocked) : c.Declared
  | unblock {c : PhaseChange} (from_blocked : c.before = .blocked) (h : c.after = c.blockedFrom) :
      c.Declared
  | reopen {c : PhaseChange} (from_closed : c.before = .closed) (h : c.after = .inProgress)
      (by_reopen : c.event = .reopened) : c.Declared

/-- A work order no call is on yet. -/
def Board.start (remembers : Bool) (row : WorkOrderRow) : Board :=
  let recorded := if remembers then row.blockedFromStatus else none
  { row := { row with blockedFromStatus := recorded }
    blockedFrom := recorded.getD WorkOrderEventType.unblocked.statusFor }

def Board.InOrder (s : Board) : Prop := ∀ c ∈ s.changes, c.Declared

/-- The row an UPDATE meets is one its own check lets through: the phase is the one it was decided
for, or where it leads already. Blocking and unblocking also go by the recorded phase. -/
def Update.Admits (r : WorkOrderRow) : Update → Prop
  | .block read _ => r.status = read ∨ r.status = .blocked ∧ r.blockedFromStatus = some read
  | .unblock backTo => r.status = backTo ∨ r.status = .blocked ∧ r.blockedFromStatus = some backTo
  | .reopen _ => r.status = .inProgress ∨ r.status = .closed
  | .close _ _ => True
  | u => r.status = u.target ∨ u.target ∈ r.status.transitions

instance (r : WorkOrderRow) : (u : Update) → Decidable (u.Admits r)
  | .start => inferInstanceAs (Decidable (_ ∨ _))
  | .advance _ _ _ => inferInstanceAs (Decidable (_ ∨ _))
  | .block _ _ => inferInstanceAs (Decidable (_ ∨ _))
  | .unblock _ => inferInstanceAs (Decidable (_ ∨ _))
  | .reopen _ => inferInstanceAs (Decidable (_ ∨ _))
  | .close _ _ => inferInstanceAs (Decidable True)

def Flight.Admits (r : WorkOrderRow) : Flight → Prop
  | .recalling => True
  | .writing u => u.Admits r

instance (r : WorkOrderRow) : (f : Flight) → Decidable (f.Admits r)
  | .recalling => inferInstanceAs (Decidable True)
  | .writing u => inferInstanceAs (Decidable (u.Admits r))

/-- An UPDATE meets a row its check lets through. -/
def Unraced (s : Board) : Turn → Prop
  | .write i _ => ∀ f ∈ s.flights[i]?, f.Admits s.row
  | _ => True

instance (s : Board) : (l : Turn) → Decidable (Unraced s l)
  | .write i _ => inferInstanceAs (Decidable (∀ f ∈ s.flights[i]?, f.Admits s.row))
  | .call _ => inferInstanceAs (Decidable True)
  | .consult _ => inferInstanceAs (Decidable True)

/-- A recorded phase is the one the work order was blocked from, and the calls are what their checks
let through. -/
structure Board.Sound (remembers : Bool) (s : Board) : Prop where
  recorded : s.row.status = .blocked → ∀ p, s.row.blockedFromStatus = some p → p = s.blockedFrom
  absent : remembers = false → s.row.blockedFromStatus = none
  flights : ∀ u, .writing u ∈ s.flights → u.Sound
  inOrder : s.InOrder

section Steps

variable {remembers : Bool} {workOrderId : String} {s t : Board}

theorem declared_of_admits {u : Update} {left : WorkOrderStatus} {r : WorkOrderRow}
    (sound : u.Sound) (admits : u.Admits r) (finds : u.finds r.status = true)
    (moved : u.target ≠ r.status)
    (recorded : r.status = .blocked → ∀ p, r.blockedFromStatus = some p → p = left) :
    PhaseChange.Declared ⟨r.status, u.target, u.event, left⟩ := by
  cases u with
  | start => exact .edge (admits.resolve_left moved.symm)
  | advance event read note => exact .edge (admits.resolve_left moved.symm)
  | block read reason =>
    rcases admits with same | ⟨already, -⟩
    · exact .block (same ▸ sound) rfl
    · exact absurd already.symm moved
  | unblock backTo =>
    obtain ⟨blocked, phase⟩ := admits.resolve_left moved.symm
    exact .unblock blocked (recorded blocked _ phase)
  | reopen reason => exact .reopen (admits.resolve_left moved.symm) rfl rfl
  | close laneReview forced => exact .edge (mem_closeable.mp (of_decide_eq_true finds))

theorem blocked_not_blockable : WorkOrderStatus.blocked ∉ WorkOrderStatus.blockable := by decide

theorem blocks_of_target {u : Update} (sound : u.Sound) (h : u.target = .blocked) :
    ∃ read reason, u = .block read reason ∧ read ≠ .blocked := by
  cases u with
  | advance event read note =>
    have open_ : ∀ event ∈ advanceEvents, event.statusFor ≠ .blocked := by decide
    exact absurd h (open_ event sound)
  | block read reason =>
    refine ⟨read, reason, rfl, ?_⟩
    rintro rfl
    exact blocked_not_blockable sound
  | unblock backTo =>
    obtain rfl : backTo = .blocked := h
    exact absurd sound blocked_not_blockable
  | _ => cases h

theorem write_blockedFromStatus_absent (now : Now) (u : Update) (r : WorkOrderRow) :
    (u.write false now r).blockedFromStatus = r.blockedFromStatus := by
  cases u <;> rfl

theorem land_sound {u : Update} {now : Now} (hs : s.Sound remembers) (sound : u.Sound)
    (admits : u.Admits s.row) (finds : u.finds s.row.status = true) :
    (s.land remembers u now).Sound remembers := by
  have absent : remembers = false → (u.write remembers now s.row).blockedFromStatus = none := by
    rintro rfl
    rw [write_blockedFromStatus_absent]
    exact hs.absent rfl
  unfold Board.land
  simp only [Update.write_status]
  split
  next same =>
    refine { hs with absent := absent, recorded := fun blocked p recorded => ?_ }
    have target : u.target = .blocked := by simpa using blocked
    obtain ⟨read, reason, rfl, open_⟩ := blocks_of_target sound target
    have here : s.row.status = .blocked := same.symm.trans target
    obtain ⟨-, already⟩ := admits.resolve_left (here ▸ open_.symm)
    cases remembers with
    | false => simp [absent rfl] at recorded
    | true =>
      cases recorded
      exact hs.recorded here _ already
  next moved =>
    refine {
      absent := absent, flights := hs.flights
      recorded := fun blocked p recorded => ?_, inOrder := fun c hc => ?_ }
    · have target : u.target = .blocked := by simpa using blocked
      obtain ⟨read, reason, rfl, -⟩ := blocks_of_target sound target
      rw [if_pos target]
      cases remembers with
      | false => simp [absent rfl] at recorded
      | true =>
        cases recorded
        rcases admits with same | ⟨already, -⟩
        · exact same.symm
        · exact absurd (target.trans already.symm) moved
    · rcases List.mem_append.mp hc with older | new
      · exact hs.inOrder c older
      · obtain rfl := List.mem_singleton.mp new
        exact declared_of_admits sound admits finds moved hs.recorded

theorem step_sound {l : Turn} (hs : s.Sound remembers) (unraced : Unraced s l)
    (h : (lifecycle remembers workOrderId).step s l = some t) : t.Sound remembers := by
  cases l with
  | call c =>
    simp only [lifecycle] at h
    split at h
    next f checked =>
      cases h
      refine { hs with flights := fun u hu => ?_ }
      rcases List.mem_append.mp hu with older | fresh
      · exact hs.flights u older
      · obtain rfl := List.mem_singleton.mp fresh
        exact check_sound checked
    next =>
      cases h
      exact hs
  | consult i =>
    simp only [lifecycle] at h
    split at h
    next =>
      cases h
      refine { hs with flights := fun u hu => ?_ }
      rcases List.mem_or_eq_of_mem_set hu with older | fresh
      · exact hs.flights u older
      · cases fresh
        exact recalled_blockable remembers s.row
    next => cases h
  | write i now =>
    simp only [lifecycle] at h
    split at h
    next u flight =>
      have rest : ({ s with flights := s.flights.eraseIdx i } : Board).Sound remembers :=
        { hs with flights := fun u hu => hs.flights u (List.mem_of_mem_eraseIdx hu) }
      have sound := hs.flights u (List.mem_of_getElem? flight)
      split at h
      next finds =>
        cases h
        exact land_sound rest sound (unraced _ flight) finds
      next =>
        cases h
        exact rest
    next => cases h

end Steps

section Runs

variable (remembers : Bool) (workOrderId : String)

theorem start_sound (row : WorkOrderRow) : (Board.start remembers row).Sound remembers where
  recorded := fun _ p recorded => by
    change (if remembers then row.blockedFromStatus else none) = some p at recorded
    simp [Board.start, recorded]
  absent := by rintro rfl; rfl
  flights := fun _ hu => absurd hu List.not_mem_nil
  inOrder := fun _ hc => absurd hc List.not_mem_nil

/-- While every UPDATE meets a row its check lets through, the phase only moves as declared. -/
theorem phases_inOrder (row : WorkOrderRow) (ls : List Turn)
    (unraced : ∀ x ∈ (lifecycle remembers workOrderId).transitions (.start remembers row) ls,
      Unraced x.before x.label) :
    ∀ x ∈ (lifecycle remembers workOrderId).transitions (.start remembers row) ls,
      x.after.InOrder := fun x hx =>
  ((lifecycle remembers workOrderId).invariant_of_guarded (J := Board.Sound remembers)
    (G := fun s l _ => Unraced s l) (fun _ _ _ hs unraced step => step_sound hs unraced step)
    (start_sound remembers row) unraced x hx).2.inOrder

def overtakenBlock : List Turn :=
  [.call (.advance "in_review" (Review.reviewStatus { project := none }) none),
    .call (.block "waiting on a key"), .write 1 ⟨"2026-09-24T10:00:00+00:00", 1⟩,
      .write 0 ⟨"2026-09-24T10:00:01+00:00", 2⟩]

def workingRow : WorkOrderRow where
  workOrderId := "wo-1"
  status := .inProgress
  lastUpdatedAt := 0

theorem overtaken_block_overwritten :
    ∃ t, (lifecycle true "wo-1").run (.start true workingRow) overtakenBlock = some t ∧
      ¬t.InOrder := by
  refine ⟨_, rfl, fun inOrder => ?_⟩
  have := inOrder ⟨.blocked, .inReview, .reviewRequested, .inProgress⟩ (by decide)
  cases this with
  | edge h => exact absurd h (by decide)
  | block _ h => cases h
  | unblock _ h => cases h
  | reopen h => cases h

def orderlyRun : List Turn :=
  let now : Now := ⟨"2026-09-24T10:00:00+00:00", 1⟩
  [.call (.advance "in_review" (Review.reviewStatus { project := none }) none), .write 0 now,
    .call (.block "waiting on a key"), .write 0 now, .call .unblock, .consult 0, .write 0 now,
    .call (.advance "pushed" { Review.reviewStatus { project := none } with blocking :=
      false } none),
    .write 0 now,
    .call (.close none "clear" false), .write 0 now, .call (.reopen "regressed"), .write 0 now]

theorem phases_inOrder_orderlyRun :
    ((lifecycle true "wo-1").transitions (.start true workingRow) orderlyRun).length =
      orderlyRun.length ∧
      ∀ x ∈ (lifecycle true "wo-1").transitions (.start true workingRow) orderlyRun,
        x.after.InOrder :=
  ⟨by decide, phases_inOrder true "wo-1" workingRow orderlyRun (by decide)⟩

end Runs

end DreamStudio.WorkOrders
