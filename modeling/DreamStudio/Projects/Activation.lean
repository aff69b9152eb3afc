import DreamStudio.Projections.Rebuild
import DreamStudio.Projections.Redelivered
import DreamStudio.WorkOrders.Mutations

namespace DreamStudio.Projects

open Library Projections WorkOrders

structure Arrangement where
  order : List Event → List Event
  perm : ∀ events, (order events).Perm events

/-- The calls that write projects. `client` is the client a registration assigns, where the client
layer is live. -/
inductive ProjectCall
  | register (name description : String) (path : Option String)
    (projectId : {id : String // id ≠ ""}) (client : Option String)
  | setActive (projectId : String)
  | deactivate (projectId : String)

inductive RosterAction
  | call (now : Now) (eventId : Nat → String) (stored : Arrangement) (call : ProjectCall)
  | tick (clock : Nat)

structure Roster where
  authority : Authority ProjectTable := { target := [] }
  pending : List Event := []

def projectEvent (type : ProjectEventType) (projectId : Text) (payload : List (String × Json))
    (eventId : String) (now : Now) : Event where
  eventId := eventId
  eventType := type.text
  eventTimestamp := now.iso
  payload := .obj payload
  projectId := projectId

def registration (name description : String) : List (String × Json) :=
  [("name", .str name), ("description", .str description), ("status", .str "active")]

namespace Roster

def rows (d : Roster) : ProjectTable := d.authority.target

def log (d : Roster) : List Event := d.authority.businessEvents

def find (d : Roster) (projectId : String) : Option ProjectRow :=
  Table.lookup ProjectRow.key projectId d.rows

/-- A project of this path is there and not archived. -/
def registered (d : Roster) (path : String) : Bool :=
  d.rows.any fun r => r.projectPath = some path ∧ r.status ≠ some "archived"

def active (d : Roster) : List Text := (d.rows.filter (·.status = some "active")).map (·.projectId)

/-- `register_project`. -/
def register (d : Roster) (name description : String) (path : Option String) (projectId : String)
    (client : Option String) (eventId : Nat → String) (now : Now) : ProjectTable × List Event :=
  if path.any d.registered then (d.rows, [])
  else
    (d.rows ++ [{
      projectId := projectId, name := name, description := description, status := some "active"
      projectPath := path, createdAt := some now.iso, updatedAt := now.micros }],
    projectEvent .created projectId
      (registration name description) (eventId 0) now ::
    client.toList.map fun clientId => projectEvent .clientAssigned projectId
      [("project_id", .str projectId), ("client_id", .str clientId)] (eventId 1) now)

/-- `set_active_project`: every active project is displaced, the one to activate among them. -/
def setActive (d : Roster) (projectId : String) (eventId : Nat → String) (now : Now) :
    ProjectTable × List Event :=
  match d.find projectId with
  | none => (d.rows, [])
  | some _ =>
    let paused : ProjectTable :=
      Table.update (·.status = some "active") (fun r => { r with status := some "paused" })
      d.rows
    (paused.set projectId fun r => { r with status := some "active", updatedAt := now.micros },
    (d.active.zipIdx.map fun (id, i) =>
      projectEvent .deactivated id [("project_id", .ofOption id)] (eventId i) now) ++
    [projectEvent .activated projectId [("project_id", .str projectId)]
      (eventId d.active.length) now])

/-- `deactivate_project`. -/
def deactivate (d : Roster) (projectId : String) (eventId : Nat → String) (now : Now) :
    ProjectTable × List Event :=
  match d.find projectId with
  | none => (d.rows, [])
  | some _ =>
    (d.rows.set projectId fun r => { r with status := some "paused", updatedAt := now.micros },
      [projectEvent .deactivated projectId [("project_id", .str projectId)] (eventId 0) now])

def perform (d : Roster) (eventId : Nat → String) (now : Now) :
    ProjectCall → ProjectTable × List Event
  | .register name description path projectId client =>
    d.register name description path projectId client eventId now
  | .setActive projectId => d.setActive projectId eventId now
  | .deactivate projectId => d.deactivate projectId eventId now

/-- A new project has an id that no row has. -/
def admits (d : Roster) : ProjectCall → Bool
  | .register _ _ _ projectId _ => (d.find projectId).isNone
  | _ => true

section Steps

variable (clients : Text → Bool) (d : Roster)

/-- A write, and its events ingested. -/
def record (live : ProjectTable) (events : List Event) : Roster where
  authority := { events.foldl (·.ingest .business ·) d.authority with target := live }
  pending := d.pending ++ events

def tick (clock : Nat) : Roster where
  authority :=
    { d.authority with target := d.pending.foldl ((projectProjection clients).apply clock) d.rows }
  pending := []

/-- The calls come one after another: each is later than every event so far, its events under ids of
their own. -/
def step : RosterAction → Option Roster
  | .call now eventId stored call =>
    let (live, events) := d.perform eventId now call
    if d.admits call ∧ (events.map (·.eventId)).Nodup ∧
        ∀ f ∈ d.log, f.eventTimestamp < now.iso ∧ ∀ e ∈ events, f.eventId ≠ e.eventId then
      some (d.record live (stored.order events))
    else none
  | .tick clock => some (d.tick clients clock)

end Steps

def machine (clients : Text → Bool) : Machine Roster RosterAction where
  step := step clients

def rebuilt (clients : Text → Bool) (clock : Nat) (d : Roster) : ProjectTable :=
  (d.authority.rebuild (projectProjection clients) (fun _ => none) clock).target

end Roster

def profile (t : ProjectTable) (projectId : String) : Option (Text × Text) :=
  (Table.lookup ProjectRow.key projectId t).map fun r => (r.status, r.projectPath)

/-- A rebuild gives every project the status and the path of its live row. -/
def Roster.Mirrors (clients : Text → Bool) (clock : Nat) (d : Roster) : Prop :=
  ∀ projectId, profile (d.rebuilt clients clock) projectId = profile d.rows projectId

def verdict (e : Event) : Option String :=
  match ProjectEventType.ofText e.eventType with
  | some .activated => some "active"
  | some .deactivated => some "paused"
  | some .deleted => some "deleted"
  | some .created | some .clientAssigned | none => none

def lastStatus (projectId : String) : List Event → Option String
  | [] => none
  | e :: events =>
    (lastStatus projectId events).or (if projectOf e = some projectId then verdict e else none)

/-- The calls whose events say what the call wrote: a registration that stores no path, or finds the
path registered; an activation of a project that is not active, or whose activated event is stored
after its deactivated event; every deactivation. -/
def Roster.Harmless (d : Roster) : RosterAction → Prop
  | .call _ _ _ (.register _ _ path _ _) => path.all d.registered = true
  | .call now eventId stored (.setActive projectId) =>
    ∀ r ∈ d.find projectId, r.status = some "active" →
      lastStatus projectId (stored.order (d.setActive projectId eventId now).2) = some "active"
  | _ => True

section Applied

variable {clients : Text → Bool} {clock : Nat} {t : ProjectTable} {e : Event} {w : String}

abbrev applyEvent (clients : Text → Bool) (clock : Nat) : ProjectTable → Event → ProjectTable :=
  (projectProjection clients).apply clock

theorem applyEvent_cases (clients : Text → Bool) (clock : Nat) (t : ProjectTable)
    (about : projectOf e = some w) :
    applyEvent clients clock t e = t ∧ (Remembers ProjectRow.marks t e.eventId ∨ verdict e = none) ∨
      ∃ row f p, Lands ProjectRow.key ProjectRow.admits ProjectRow.standing
        ProjectRow.marks w e.eventId
        (projectSeed e clock) (projectPatch e) t (applyEvent clients clock t e) row f p ∧
        row.projectPath = none ∧ ∀ r, (f r).projectPath = r.projectPath := by
  by_cases seen : t.isAlreadyProcessed e.eventId = true
  · have skipped : handleProject clients e clock t = .ok (0, t) := if_pos seen
    exact Or.inl ⟨Projection.apply_ok skipped, Or.inl (project_remembers.mpr seen)⟩
  · rw [Bool.not_eq_true] at seen
    cases handled : handleProject clients e clock t with
    | ok result =>
      have applied : applyEvent clients clock t e = result.2 := Projection.apply_ok handled
      rw [applied]
      exact Or.inr (handleProject_lands about seen handled)
    | error failure =>
      refine Or.inl ⟨Projection.apply_error handled, Or.inr ?_⟩
      rw [handleProject_eq about seen] at handled
      unfold verdict
      cases type : ProjectEventType.ofText e.eventType with
      | none => rfl
      | some type' =>
        rw [type] at handled
        cases type' with
        | created | clientAssigned => rfl
        | _ => cases handled

theorem applyEvent_other (about : projectOf e = some w) {k : String} (other : k ≠ w) :
    profile (applyEvent clients clock t e) k = profile t k := by
  rcases applyEvent_cases clients clock t about with
    ⟨same, -⟩ | ⟨row, f, p, landed, -⟩
  · rw [same]
  · unfold profile
    rw [landed.other other]

theorem applyEvent_learns (about : projectOf e = some w) (id : String)
    (seen : Remembers ProjectRow.marks (applyEvent clients clock t e) id) :
    Remembers ProjectRow.marks t id ∨ id = e.eventId := by
  rcases applyEvent_cases clients clock t about with
    ⟨same, -⟩ | ⟨row, f, p, landed, -⟩
  · exact Or.inl (same ▸ seen)
  · exact landed.learns id seen

theorem profile_lands {row : ProjectRow} {f : ProjectRow → ProjectRow} {p : ProjectRow → Bool}
    {t' : ProjectTable}
    (landed : Lands ProjectRow.key ProjectRow.admits ProjectRow.standing ProjectRow.marks
      w e.eventId (projectSeed e clock) (projectPatch e) t t' row f p)
    (pathless : row.projectPath = none) (path : ∀ r, (f r).projectPath = r.projectPath) :
    profile t' w =
      ((profile t w).or ((projectSeed e clock).map fun s => (s.1, none))).map fun x =>
        ((verdict e).elim x.1 some, x.2) := by
  have patched : ∀ s : Text × Text, (projectPatch e s).1 = (verdict e).elim s.1 some := fun s => by
    unfold projectPatch verdict
    split <;> simp_all
  have status : ∀ r : ProjectRow, (f r).status = (verdict e).elim r.status some := fun r =>
    (congrArg Prod.fst (landed.patch r)).trans (patched r.standing)
  unfold profile
  rw [landed.lands, Table.lookup_merge landed.own landed.keeps landed.where_, Option.map_map,
    ← landed.seed]
  cases Table.lookup ProjectRow.key w t with
  | some r => simp [status, path]
  | none => split <;> simp [status, path, pathless, ProjectRow.standing]

theorem applyEvent_present (about : projectOf e = some w)
    (new : ¬Remembers ProjectRow.marks t e.eventId) (present : (profile t w).isSome = true) :
    profile (applyEvent clients clock t e) w =
      (profile t w).map fun x => ((verdict e).elim x.1 some, x.2) := by
  obtain ⟨x, held⟩ := Option.isSome_iff_exists.mp present
  rcases applyEvent_cases clients clock t about with
    ⟨same, still⟩ | ⟨row, f, p, landed, pathless, path⟩
  · rw [same, still.resolve_left new, held]
    rfl
  · rw [profile_lands landed pathless path, held]
    rfl

theorem projectOf_projectEvent (named : w ≠ "") (type : ProjectEventType)
    (fields : List (String × Json)) (eventId : String) (now : Now) :
    projectOf (projectEvent type w fields eventId now) = some w := by
  simp [projectOf, projectEvent, columnOr, named, bindText, Except.toOption]

theorem ofText_projectEvent (type : ProjectEventType) (projectId : Text)
    (fields : List (String × Json)) (eventId : String) (now : Now) :
    ProjectEventType.ofText (projectEvent type projectId fields eventId now).eventType =
      some type :=
  ProjectEventType.ofText_text type

theorem str_or_empty (s : String) : (Json.str s).or (.str "") = .str s := by
  by_cases empty : s = "" <;> simp [Json.or, empty]

theorem handleProject_created (clients : Text → Bool) (clock : Nat) (named : w ≠ "")
    {name description eventId : String} {now : Now} (new : t.isAlreadyProcessed eventId = false) :
    ∃ t', handleProject clients
      (projectEvent .created w (registration name description) eventId now)
      clock t = .ok (1, t') := by
  set e := projectEvent .created w (registration name description) eventId now with he
  have type : ProjectEventType.ofText e.eventType = some .created := ofText_projectEvent ..
  have text : ∀ s, bindParam ((Json.str s).or (.str "")) = .ok (some s) := fun s => by
    rw [str_or_empty]
    rfl
  rw [handleProject_eq (projectOf_projectEvent named ..) new, type]
  simp only [ProjectTable.handleCreated]
  change ∃ t', (bindParam ((Json.str name).or (.str "")) >>= _) = _
  rw [text, ok_bind]
  change ∃ t', (bindParam ((Json.str description).or (.str "")) >>= _) = _
  rw [text, ok_bind]
  refine ⟨_, if_pos (List.all_eq_true.mpr fun r hr => ?_)⟩
  obtain ⟨q, -, rfl⟩ := Table.mem_update.mp hr
  split
  next => simp [ProjectTable.backfill, coalesce]
  next other =>
    have other : q.key ≠ some w := by simpa using other
    simp [other]

variable (clients clock) in
theorem applyEvent_created (name description : String) (now : Now) (named : w ≠ "")
    {eventId : String} (new : ¬Remembers ProjectRow.marks t eventId) (absent : profile t w = none) :
    profile (applyEvent clients clock t
      (projectEvent .created w (registration name description) eventId now)) w =
        some (some "active", none) := by
  have type : ProjectEventType.ofText
      (projectEvent .created w (registration name description) eventId now).eventType =
        some .created :=
    ofText_projectEvent ..
  have fresh : t.isAlreadyProcessed eventId = false :=
    Bool.eq_false_iff.mpr (mt project_remembers.mpr new)
  have seed :
      projectSeed (projectEvent .created w (registration name description) eventId now) clock =
      some (some "active", some now.iso) := by
    have nameText :
        givenText "name" "" (projectEvent .created w (registration name description) eventId now) =
        some name := givenText_eq (v := .str name) rfl (by rw [str_or_empty]; rfl)
    simp only [projectSeed, type, nameText]
    rfl
  obtain ⟨t', handled⟩ := handleProject_created clients clock named fresh
  have applied : applyEvent clients clock t
      (projectEvent .created w (registration name description) eventId now) = t' :=
    Projection.apply_ok handled
  obtain ⟨row, f, p, landed, pathless, path⟩ :=
    handleProject_lands (projectOf_projectEvent named ..) fresh handled
  rw [applied, profile_lands landed pathless path, absent, seed]
  simp [verdict, type]

theorem applyEvent_absent (about : projectOf e = some w) (absent : profile t w = none)
    (client : ProjectEventType.ofText e.eventType = some .clientAssigned) :
    profile (applyEvent clients clock t e) w = none ∨
      profile (applyEvent clients clock t e) w = some (some "active", none) := by
  rcases applyEvent_cases clients clock t about with
    ⟨same, -⟩ | ⟨row, f, p, landed, pathless, path⟩
  · exact Or.inl ((congrArg (profile · w) same).trans absent)
  · refine Or.inr ?_
    rw [profile_lands landed pathless path, absent]
    simp [projectSeed, verdict, client]

theorem lastStatus_append (w : String) (events later : List Event) :
    lastStatus w (events ++ later) = (lastStatus w later).or (lastStatus w events) := by
  induction events with
  | nil => simp [lastStatus]
  | cons e events ih => rw [List.cons_append, lastStatus, ih, lastStatus, Option.or_assoc]

theorem lastStatus_of_forall {events : List Event} {s : String}
    (all : ∀ e ∈ events, projectOf e = some w → verdict e = some s)
    (some_ : ∃ e ∈ events, projectOf e = some w) : lastStatus w events = some s := by
  induction events with
  | nil => simp at some_
  | cons e events ih =>
    obtain ⟨first, rest⟩ := List.forall_mem_cons.mp all
    rw [lastStatus]
    by_cases later : ∃ f ∈ events, projectOf f = some w
    · rw [ih rest later]
      rfl
    · have none_ : lastStatus w events = none := by
        clear ih some_ rest all
        induction events with
        | nil => rfl
        | cons f events ih =>
          rw [lastStatus, if_neg fun about => later ⟨f, List.mem_cons_self, about⟩, Option.or_none]
          exact ih fun ⟨g, hg, about⟩ => later ⟨g, List.mem_cons_of_mem _ hg, about⟩
      have about : projectOf e = some w := by
        obtain ⟨f, hf, about⟩ := some_
        rcases List.mem_cons.mp hf with rfl | hf
        · exact about
        · exact absurd ⟨f, hf, about⟩ later
      rw [none_, if_pos about, first about]
      rfl

structure Meets (events : List Event) (t : ProjectTable) : Prop where
  ids : (events.map (·.eventId)).Nodup
  new : ∀ e ∈ events, ¬Remembers ProjectRow.marks t e.eventId
  about : ∀ e ∈ events, ∃ w, projectOf e = some w ∧ (profile t w).isSome = true

theorem Meets.cons (clients : Text → Bool) (clock : Nat) {events : List Event}
    (h : Meets (e :: events) t) :
    (∀ k, profile (applyEvent clients clock t e) k =
        (profile t k).map fun x => ((lastStatus k [e]).elim x.1 some, x.2)) ∧
      Meets events (applyEvent clients clock t e) := by
  obtain ⟨w, about, present⟩ := h.about e List.mem_cons_self
  have here : ∀ k, profile (applyEvent clients clock t e) k =
      (profile t k).map fun x => ((lastStatus k [e]).elim x.1 some, x.2) := by
    intro k
    by_cases mine : k = w
    · subst mine
      rw [applyEvent_present about (h.new e List.mem_cons_self) present, lastStatus, if_pos about]
      rfl
    · have other : projectOf e ≠ some k :=
        fun same => mine (Option.some.inj (same.symm.trans about))
      rw [applyEvent_other about mine, lastStatus, if_neg other]
      exact Option.map_id'.symm
  refine ⟨here, (List.nodup_cons.mp h.ids).2, fun f hf seen => ?_, fun f hf => ?_⟩
  · rcases applyEvent_learns about _ seen with before | same
    · exact h.new f (List.mem_cons_of_mem _ hf) before
    · exact (List.nodup_cons.mp h.ids).1 (List.mem_map.mpr ⟨f, hf, same⟩)
  · obtain ⟨k, aboutK, presentK⟩ := h.about f (List.mem_cons_of_mem _ hf)
    exact ⟨k, aboutK, by rw [here, Option.isSome_map]; exact presentK⟩

theorem foldl_profile {events : List Event} (h : Meets events t) (k : String) :
    profile (events.foldl (applyEvent clients clock) t) k =
      (profile t k).map fun x => ((lastStatus k events).elim x.1 some, x.2) := by
  induction events generalizing t with
  | nil => exact Option.map_id'.symm
  | cons e events ih =>
    obtain ⟨here, rest⟩ := h.cons clients clock
    rw [List.foldl_cons, ih rest, here, Option.map_map]
    congr 1
    funext x
    have merged : lastStatus k (e :: events) = (lastStatus k events).or (lastStatus k [e]) :=
      lastStatus_append k [e] events
    rw [merged]
    cases lastStatus k events <;> rfl

end Applied

namespace Roster

variable {clients : Text → Bool} {clock : Nat} {d : Roster}

/-- Events of one moment, later than the log, under ids of their own. -/
structure Fresh (clients : Text → Bool) (d : Roster) (now : String) (events : List Event) :
    Prop where
  ids : (events.map (·.eventId)).Nodup
  stamps : ∀ e ∈ events, e.eventTimestamp = now
  later : ∀ f ∈ d.log, f.eventTimestamp < now ∧ ∀ e ∈ events, f.eventId ≠ e.eventId
  consumed : ∀ e ∈ events, (projectProjection clients).consumes e = true

/-- What every run keeps: what is pending is about projects that are there, and their replay already
has the last status that it gives. -/
structure Sound (clients : Text → Bool) (clock : Nat) (d : Roster) : Prop where
  sorted : d.log.Pairwise fun e f => e.eventTimestamp ≤ f.eventTimestamp
  ids : (d.log.map (·.eventId)).Nodup
  consumed : ∀ e ∈ d.log, (projectProjection clients).consumes e = true
  unique : Table.Unique ProjectRow.key d.rows
  named : ∀ r ∈ d.rows, ∃ w, w ≠ "" ∧ r.key = some w
  handled : ∃ before, d.log = before ++ d.pending ∧
    ∀ id, Remembers ProjectRow.marks d.rows id → ∃ e ∈ before, e.eventId = id
  replayed : ∀ id, Remembers ProjectRow.marks (d.rebuilt clients clock) id →
    ∃ e ∈ d.log, e.eventId = id
  keys : ∀ w, (profile (d.rebuilt clients clock) w).isSome = (profile d.rows w).isSome
  pathless : ∀ w x, profile (d.rebuilt clients clock) w = some x → x.2 = none
  about : ∀ e ∈ d.pending, ∃ w, projectOf e = some w ∧ (profile d.rows w).isSome = true
  settled : ∀ w s, lastStatus w d.pending = some s →
    (profile (d.rebuilt clients clock) w).map (·.1) = some (some s)

theorem rebuilt_eq (sorted : d.log.Pairwise fun e f => e.eventTimestamp ≤ f.eventTimestamp)
    (consumed : ∀ e ∈ d.log, (projectProjection clients).consumes e = true) :
    d.rebuilt clients clock = d.log.foldl (applyEvent clients clock) [] := by
  have all : d.log.filter (projectProjection clients).consumes = d.log :=
    List.filter_eq_self.mpr consumed
  refine (Authority.rebuild_sorted rfl sorted).trans ?_
  exact congrArg (List.foldl (applyEvent clients clock) []) all

theorem foldl_ingest {a : Authority ProjectTable} {events : List Event}
    (ids : (events.map (·.eventId)).Nodup)
    (new : ∀ f ∈ a.businessEvents, ∀ e ∈ events, f.eventId ≠ e.eventId) :
    (events.foldl (·.ingest .business ·) a).businessEvents = a.businessEvents ++ events := by
  induction events generalizing a with
  | nil => simp
  | cons e events ih =>
    rw [List.map_cons, List.nodup_cons] at ids
    have here : (a.ingest .business e).businessEvents = a.businessEvents ++ [e] := by
      have fresh : a.businessEvents.any (fun f => Table.SameKey Event.key f e) = false := by
        refine List.any_eq_false.mpr fun f hf same => new f hf e List.mem_cons_self ?_
        exact Option.some.inj (of_decide_eq_true same).1
      change Table.insertOrIgnore Event.key (fun _ => true) a.businessEvents e = _
      unfold Table.insertOrIgnore
      rw [fresh]
      rfl
    rw [List.foldl_cons, ih ids.2, here, List.append_assoc]
    · rfl
    · rw [here]
      intro f hf g hg
      rcases List.mem_append.mp hf with hf | hf
      · exact new f hf g (List.mem_cons_of_mem _ hg)
      · rw [List.mem_singleton.mp hf]
        exact fun same => ids.1 (List.mem_map.mpr ⟨g, hg, same.symm⟩)

section Record

variable {live : ProjectTable} {events : List Event} {now : String}

theorem record_log (live : ProjectTable) (fresh : Fresh clients d now events) :
    (d.record live events).log = d.log ++ events :=
  foldl_ingest fresh.ids fun f hf => (fresh.later f hf).2

theorem Sound.record_rebuilt (h : d.Sound clients clock) (live : ProjectTable)
    (fresh : Fresh clients d now events) :
    (d.record live events).log.Pairwise (fun e f => e.eventTimestamp ≤ f.eventTimestamp) ∧
      (∀ e ∈ (d.record live events).log, (projectProjection clients).consumes e = true) ∧
      (d.record live events).rebuilt clients clock =
        events.foldl (applyEvent clients clock) (d.rebuilt clients clock) := by
  have sorted : (d.record live events).log.Pairwise fun e f => e.eventTimestamp ≤
      f.eventTimestamp := by
    rw [record_log live fresh]
    refine List.pairwise_append.mpr ⟨h.sorted, ?_, fun f hf e he => ?_⟩
    · exact List.pairwise_of_forall_mem_list fun e he f hf => by
        rw [fresh.stamps e he, fresh.stamps f hf]
    · rw [fresh.stamps e he]
      exact (fresh.later f hf).1.le
  have consumed : ∀ e ∈ (d.record live events).log, (projectProjection clients).consumes e =
      true := by
    rw [record_log live fresh]
    intro e he
    exact (List.mem_append.mp he).elim (h.consumed e) (fresh.consumed e)
  refine ⟨sorted, consumed, ?_⟩
  rw [rebuilt_eq sorted consumed, rebuilt_eq h.sorted h.consumed, record_log live fresh,
    List.foldl_append]

theorem foldl_learns {t : ProjectTable} (about : ∀ e ∈ events, ∃ w, projectOf e = some w)
    (id : String)
    (seen : Remembers ProjectRow.marks (events.foldl (applyEvent clients clock) t) id) :
    Remembers ProjectRow.marks t id ∨ ∃ e ∈ events, e.eventId = id := by
  induction events generalizing t with
  | nil => exact Or.inl seen
  | cons e events ih =>
    obtain ⟨first, rest⟩ := List.forall_mem_cons.mp about
    obtain ⟨w, about⟩ := first
    rcases ih rest seen with before | ⟨f, hf, same⟩
    · rcases applyEvent_learns about id before with before | rfl
      · exact Or.inl before
      · exact Or.inr ⟨e, List.mem_cons_self, rfl⟩
    · exact Or.inr ⟨f, List.mem_cons_of_mem _ hf, same⟩

theorem Sound.record (h : d.Sound clients clock) (fresh : Fresh clients d now events)
    (unique : Table.Unique ProjectRow.key live) (named : ∀ r ∈ live, ∃ w, w ≠ "" ∧ r.key = some w)
    (marks : ∀ id, Remembers ProjectRow.marks live id → Remembers ProjectRow.marks d.rows id)
    (grows : ∀ w, (profile d.rows w).isSome = true → (profile live w).isSome = true)
    (about : ∀ e ∈ events, ∃ w, projectOf e = some w ∧ (profile live w).isSome = true)
    (keys : ∀ w, (profile ((d.record live events).rebuilt clients clock) w).isSome =
      (profile live w).isSome)
    (pathless : ∀ w x, profile ((d.record live events).rebuilt clients clock) w = some x →
      x.2 = none)
    (settled : ∀ w s, lastStatus w (d.pending ++ events) = some s →
      (profile ((d.record live events).rebuilt clients clock) w).map (·.1) = some (some s)) :
    (d.record live events).Sound clients clock := by
  obtain ⟨sorted, consumed, rebuilt⟩ := h.record_rebuilt live fresh
  have log := record_log live fresh
  refine ⟨sorted, ?_, consumed, unique, named, ?_, ?_, keys, pathless, ?_, settled⟩
  · rw [log, List.map_append]
    refine List.nodup_append.mpr ⟨h.ids, fresh.ids, ?_⟩
    rintro _ hid _ hid' rfl
    obtain ⟨f, hf, rfl⟩ := List.mem_map.mp hid
    obtain ⟨e, he, same⟩ := List.mem_map.mp hid'
    exact (fresh.later f hf).2 e he same.symm
  · obtain ⟨before, split, known⟩ := h.handled
    refine ⟨before, ?_, fun id seen => known id (marks id seen)⟩
    rw [log, split, List.append_assoc]
    rfl
  · intro id seen
    rw [rebuilt] at seen
    rw [log]
    rcases foldl_learns (fun e he => (about e he).imp fun _ => And.left) id
      seen with before | ⟨e, he, same⟩
    · obtain ⟨e, he, same⟩ := h.replayed id before
      exact ⟨e, List.mem_append_left _ he, same⟩
    · exact ⟨e, List.mem_append_right _ he, same⟩
  · intro e he
    rcases List.mem_append.mp he with he | he
    · exact (h.about e he).imp fun w mine => ⟨mine.1, grows w mine.2⟩
    · exact about e he

end Record

section Tick

theorem applyEvent_rows (clients : Text → Bool) (clock : Nat) {t : ProjectTable} {e : Event}
    (unique : Table.Unique ProjectRow.key t)
    (about : ∃ w, projectOf e = some w ∧ (profile t w).isSome = true) :
    Table.Unique ProjectRow.key (applyEvent clients clock t e) ∧
      ∀ r ∈ applyEvent clients clock t e, ∃ q ∈ t, q.key = r.key := by
  obtain ⟨w, about, present⟩ := about
  rcases applyEvent_cases clients clock t about with ⟨same, -⟩ | ⟨row, f, p, landed, -⟩
  · rw [same]
    exact ⟨unique, fun r hr => ⟨r, hr, rfl⟩⟩
  · have held : ∃ q ∈ t, q.key = some w := by
      unfold profile at present
      rw [Option.isSome_map] at present
      obtain ⟨q, found⟩ := Option.isSome_iff_exists.mp present
      exact ⟨q, Table.lookup_key found⟩
    have inserted : ∀ r ∈ Table.insertOrIgnore ProjectRow.key ProjectRow.admits t row, ∃ q ∈
        t, q.key = r.key :=
      Table.forall_insertOrIgnore (fun r hr => ⟨r, hr, rfl⟩) (landed.own ▸ held)
    rw [landed.lands]
    refine ⟨Table.update_unique (Table.insertOrIgnore_unique unique _) fun r _ =>
      landed.keeps r, ?_⟩
    exact Table.forall_update inserted fun r before => by rw [landed.keeps]; exact before

theorem foldl_rows (clients : Text → Bool) (clock : Nat) {t : ProjectTable} {events : List Event}
    (unique : Table.Unique ProjectRow.key t) (meets : Meets events t) :
    Table.Unique ProjectRow.key (events.foldl (applyEvent clients clock) t) ∧
      ∀ r ∈ events.foldl (applyEvent clients clock) t, ∃ q ∈ t, q.key = r.key := by
  induction events generalizing t with
  | nil => exact ⟨unique, fun r hr => ⟨r, hr, rfl⟩⟩
  | cons e events ih =>
    obtain ⟨once, rows⟩ := applyEvent_rows clients clock unique
      (meets.about e List.mem_cons_self)
    obtain ⟨unique', rest⟩ := ih once (meets.cons clients clock).2
    refine ⟨unique', fun r hr => ?_⟩
    obtain ⟨q, hq, same⟩ := rest r hr
    obtain ⟨q', hq', same'⟩ := rows q hq
    exact ⟨q', hq', same'.trans same⟩

theorem Sound.meets (h : d.Sound clients clock) : Meets d.pending d.rows := by
  obtain ⟨before, split, known⟩ := h.handled
  have ids := h.ids
  rw [split, List.map_append, List.nodup_append] at ids
  refine ⟨ids.2.1, fun e he seen => ?_, h.about⟩
  obtain ⟨f, hf, same⟩ := known _ seen
  exact ids.2.2 _ (List.mem_map.mpr ⟨f, hf, rfl⟩) _ (List.mem_map.mpr ⟨e, he, rfl⟩) same

theorem Sound.tick (h : d.Sound clients clock) (pass : Nat) :
    (d.tick clients pass).Sound clients clock ∧
      ∀ w, profile (d.tick clients pass).rows w =
        (profile d.rows w).map fun x => ((lastStatus w d.pending).elim x.1 some, x.2) := by
  have meets := h.meets
  have ticked : ∀ w, profile (d.tick clients pass).rows w =
      (profile d.rows w).map fun x => ((lastStatus w d.pending).elim x.1 some, x.2) :=
    foldl_profile meets
  obtain ⟨unique, rows⟩ := foldl_rows clients pass h.unique meets
  have rebuilt : (d.tick clients pass).rebuilt clients clock = d.rebuilt clients clock := by
    rw [rebuilt_eq (d := d.tick clients pass) h.sorted h.consumed, rebuilt_eq h.sorted h.consumed]
    rfl
  refine ⟨⟨h.sorted, h.ids, h.consumed, unique,
    fun r hr => ?_, ⟨d.log, (List.append_nil _).symm, ?_⟩, ?_,
    fun w => ?_, ?_, nofun, nofun⟩, ticked⟩
  · obtain ⟨q, hq, same⟩ := rows r hr
    rw [← same]
    exact h.named q hq
  · intro id seen
    obtain ⟨before, split, known⟩ := h.handled
    rcases foldl_learns (fun e he => (h.about e he).imp fun _ => And.left) id
      seen with first | ⟨e, he, same⟩
    · obtain ⟨e, he, same⟩ := known id first
      exact ⟨e, split ▸ List.mem_append_left _ he, same⟩
    · exact ⟨e, split ▸ List.mem_append_right _ he, same⟩
  · rw [rebuilt]
    exact h.replayed
  · rw [rebuilt, ticked, Option.isSome_map]
    exact h.keys w
  · rw [rebuilt]
    exact h.pathless

theorem Sound.tick_mirrors (h : d.Sound clients clock) (mirrors : d.Mirrors clients clock)
    (pass : Nat) :
    (d.tick clients pass).Mirrors clients clock := by
  obtain ⟨sound, ticked⟩ := h.tick pass
  intro w
  have rebuilt : (d.tick clients pass).rebuilt clients clock = d.rebuilt clients clock := by
    rw [rebuilt_eq (d := d.tick clients pass) h.sorted h.consumed, rebuilt_eq h.sorted h.consumed]
    rfl
  rw [rebuilt, ticked, mirrors w]
  cases last : lastStatus w d.pending with
  | none => exact Option.map_id'.symm
  | some s =>
    have now := h.settled w s last
    rw [mirrors w] at now
    cases held : profile d.rows w with
    | none => rfl
    | some x =>
      rw [held] at now
      have same : x.1 = some s := Option.some.inj now
      rw [Option.map_some, Option.elim_some, ← same]

end Tick

section Status

theorem exists_of_lastStatus {w s : String} {events : List Event}
    (last : lastStatus w events = some s) :
    ∃ e ∈ events, projectOf e = some w ∧ verdict e = some s := by
  induction events with
  | nil => cases last
  | cons e events ih =>
    rw [lastStatus] at last
    rcases Option.or_eq_some_iff.mp last with later | ⟨-, here⟩
    · obtain ⟨f, hf, mine⟩ := ih later
      exact ⟨f, List.mem_cons_of_mem _ hf, mine⟩
    · split at here
      next about => exact ⟨e, List.mem_cons_self, about, here⟩
      next => cases here

theorem fresh_unseen (h : d.Sound clients clock) {now : String} {events : List Event}
    (fresh : Fresh clients d now events) {e : Event} (he : e ∈ events) :
    ¬Remembers ProjectRow.marks (d.rebuilt clients clock) e.eventId := by
  intro seen
  obtain ⟨f, hf, same⟩ := h.replayed _ seen
  exact (fresh.later f hf).2 e he same

theorem Sound.restate (h : d.Sound clients clock) {now : String} {events : List Event}
    (fresh : Fresh clients d now events) {live : ProjectTable}
    (unique : Table.Unique ProjectRow.key live) (named : ∀ r ∈ live, ∃ w, w ≠ "" ∧ r.key = some w)
    (marks : ∀ id, Remembers ProjectRow.marks live id → Remembers ProjectRow.marks d.rows id)
    (same : ∀ w, (profile live w).isSome = (profile d.rows w).isSome)
    (about : ∀ e ∈ events, ∃ w, projectOf e = some w ∧ (profile d.rows w).isSome = true) :
    (d.record live events).Sound clients clock ∧
      ∀ w, profile ((d.record live events).rebuilt clients clock) w =
        (profile (d.rebuilt clients clock) w).map fun x =>
          ((lastStatus w events).elim x.1 some, x.2) := by
  have meets : Meets events (d.rebuilt clients clock) :=
    ⟨fresh.ids, fun e he => fresh_unseen h fresh he,
      fun e he => (about e he).imp fun w mine => ⟨mine.1, (h.keys w).trans mine.2⟩⟩
  obtain ⟨-, -, rebuilt⟩ := h.record_rebuilt live fresh
  have replay : ∀ w, profile ((d.record live events).rebuilt clients clock) w =
      (profile (d.rebuilt clients clock) w).map fun x =>
        ((lastStatus w events).elim x.1 some, x.2) :=
    fun w => by rw [rebuilt, foldl_profile meets]
  refine ⟨h.record fresh unique named marks (fun w => by rw [same]; exact id)
    (fun e he => (about e he).imp fun w mine => ⟨mine.1, (same w).trans mine.2⟩)
    (fun w => by rw [replay, Option.isSome_map, h.keys, same]) (fun w x hx => ?_) fun w s
      last => ?_, replay⟩
  · rw [replay] at hx
    obtain ⟨y, hy, rfl⟩ := Option.map_eq_some_iff.mp hx
    exact h.pathless w y hy
  · rw [lastStatus_append] at last
    rw [replay, Option.map_map]
    cases here : lastStatus w events with
    | none =>
      rw [here, Option.none_or] at last
      rw [← h.settled w s last]
      rfl
    | some s' =>
      rw [here, Option.some_or] at last
      cases last
      obtain ⟨e, he, mine, -⟩ := exists_of_lastStatus here
      obtain ⟨w', mine', present⟩ := about e he
      rw [mine, Option.some.injEq] at mine'
      rw [← mine', ← h.keys] at present
      obtain ⟨x, held⟩ := Option.isSome_iff_exists.mp present
      rw [held]
      rfl

end Status

section Calls

structure Rewrites (t t' : ProjectTable) : Prop where
  unique : Table.Unique ProjectRow.key t → Table.Unique ProjectRow.key t'
  keys : ∀ r ∈ t', ∃ q ∈ t, q.key = r.key
  marks : ∀ id, Remembers ProjectRow.marks t' id → Remembers ProjectRow.marks t id
  same : ∀ w, (profile t' w).isSome = (profile t w).isSome

theorem Rewrites.refl (t : ProjectTable) : Rewrites t t :=
  ⟨id, fun r hr => ⟨r, hr, rfl⟩, fun _ => id, fun _ => rfl⟩

theorem Rewrites.trans {t t' t'' : ProjectTable} (first : Rewrites t t')
    (second : Rewrites t' t'') :
    Rewrites t t'' where
  unique := second.unique ∘ first.unique
  keys := by
    intro r hr
    obtain ⟨q, hq, same⟩ := second.keys r hr
    obtain ⟨q', hq', same'⟩ := first.keys q hq
    exact ⟨q', hq', same'.trans same⟩
  marks := fun id seen => first.marks id (second.marks id seen)
  same := fun w => (second.same w).trans (first.same w)

variable {t : ProjectTable} {p : ProjectRow → Bool} {f : ProjectRow → ProjectRow}

theorem profile_update (key : ∀ r, (f r).key = r.key)
    (path : ∀ r, (f r).projectPath = r.projectPath) (w : String) :
    profile (Table.update p f t) w =
      (Table.lookup ProjectRow.key w t).map fun r =>
        (if p r then (f r).status else r.status, r.projectPath) := by
  unfold profile
  rw [Table.lookup_update key, Option.map_map]
  refine Option.map_congr fun r _ => ?_
  simp only [Function.comp]
  split <;> simp [path]

theorem rewrites_update (key : ∀ r, (f r).key = r.key)
    (path : ∀ r, (f r).projectPath = r.projectPath) (marks : ∀ r id, (f r).marks id ↔ r.marks id) :
    Rewrites t (Table.update p f t) where
  unique := fun unique => Table.update_unique unique fun r _ => key r
  keys := Table.forall_update (fun r hr => ⟨r, hr, rfl⟩) fun r before => by rw [key]; exact before
  marks := by
    rintro id ⟨r, hr, seen⟩
    obtain ⟨q, hq, rfl⟩ := Table.mem_update.mp hr
    split at seen
    · exact ⟨q, hq, (marks q id).mp seen⟩
    · exact ⟨q, hq, seen⟩
  same := fun w => by
    rw [profile_update key path, Option.isSome_map]
    unfold profile
    rw [Option.isSome_map]

theorem Sound.rewrite (h : d.Sound clients clock) {now : String} {events : List Event}
    (fresh : Fresh clients d now events) {live : ProjectTable} (rewrites : Rewrites d.rows live)
    (about : ∀ e ∈ events, ∃ w, projectOf e = some w ∧ (profile d.rows w).isSome = true) :
    (d.record live events).Sound clients clock ∧
      ∀ w, profile ((d.record live events).rebuilt clients clock) w =
        (profile (d.rebuilt clients clock) w).map fun x =>
          ((lastStatus w events).elim x.1 some, x.2) :=
  h.restate fresh (rewrites.unique h.unique)
    (fun r hr => by
      obtain ⟨q, hq, same⟩ := rewrites.keys r hr
      rw [← same]
      exact h.named q hq)
    rewrites.marks rewrites.same about

theorem untouched_step (h : d.Sound clients clock) {now : String} {stored : Arrangement}
    {written : ProjectTable × List Event} (same : written = (d.rows, []))
    (fresh : Fresh clients d now (stored.order written.2)) :
    (d.record written.1 (stored.order written.2)).Sound clients clock ∧
      (d.Mirrors clients clock →
        (d.record written.1 (stored.order written.2)).Mirrors clients clock) := by
  subst same
  have nothing : stored.order [] = [] := List.perm_nil.mp (stored.perm [])
  simp only [nothing] at fresh ⊢
  obtain ⟨sound, replay⟩ := h.rewrite fresh (Rewrites.refl d.rows) nofun
  refine ⟨sound, fun mirrors w => ?_⟩
  rw [replay, mirrors w]
  exact Option.map_id'

theorem Sound.ne_empty (h : d.Sound clients clock) {w : String} {r : ProjectRow}
    (found : d.find w = some r) : w ≠ "" := by
  obtain ⟨w', ne, own⟩ := h.named r (Table.lookup_key found).1
  have same : some w = some w' := (Table.lookup_key found).2.symm.trans own
  rwa [Option.some.inj same]

theorem present_of_find {w : String} {r : ProjectRow} (found : d.find w = some r) :
    profile d.rows w = some (r.status, r.projectPath) := by
  unfold profile
  rw [show Table.lookup ProjectRow.key w d.rows = some r from found]
  rfl

theorem consumes_projectEvent (type : ProjectEventType) (projectId : Text)
    (fields : List (String × Json)) (eventId : String) (now : Now) :
    (projectProjection clients).consumes (projectEvent type projectId fields eventId now) =
      true := by
  cases type <;> rfl

theorem deactivate_step {projectId : String} {eventId : Nat → String} {now : Now} {r : ProjectRow}
    {stored : Arrangement} (h : d.Sound clients clock) (found : d.find projectId = some r)
    (fresh : Fresh clients d now.iso (stored.order (d.deactivate projectId eventId now).2)) :
    (d.record (d.deactivate projectId eventId now).1
        (stored.order (d.deactivate projectId eventId now).2)).Sound clients clock ∧
      (d.Mirrors clients clock →
        (d.record (d.deactivate projectId eventId now).1
          (stored.order (d.deactivate projectId eventId now).2)).Mirrors clients clock) := by
  have named := h.ne_empty found
  have about : ∀ fields, projectOf (projectEvent .deactivated projectId fields (eventId 0) now) =
      some projectId := fun _ => projectOf_projectEvent named ..
  have one : stored.order (d.deactivate projectId eventId now).2 =
      [projectEvent .deactivated projectId [("project_id", .str projectId)] (eventId 0) now] := by
    refine List.perm_singleton.mp ((stored.perm _).trans ?_)
    rw [deactivate, found]
  have live : (d.deactivate projectId eventId now).1 = d.rows.set projectId fun r =>
      { r with status := some "paused", updatedAt := now.micros } := by
    rw [deactivate, found]
  rw [one] at fresh ⊢
  obtain ⟨sound, replay⟩ := h.rewrite fresh
    (live ▸ rewrites_update (fun _ => rfl) (fun _ => rfl) fun _ _ => Iff.rfl : Rewrites d.rows
      (d.deactivate projectId eventId now).1)
    fun e he => by
      rw [List.mem_singleton.mp he]
      exact ⟨projectId, about _, by rw [present_of_find found]; rfl⟩
  refine ⟨sound, fun mirrors w => ?_⟩
  rw [replay, mirrors w]
  change _ = profile (d.deactivate projectId eventId now).1 w
  rw [live]
  refine Eq.trans ?_ (profile_update ?_ ?_ w).symm
  case refine_2 | refine_3 => exact fun _ => rfl
  unfold profile
  rw [Option.map_map]
  refine Option.map_congr fun q held => ?_
  have own : q.key = some w := (Table.lookup_key held).2
  have status :
      verdict (projectEvent .deactivated projectId [("project_id", .str projectId)]
      (eventId 0) now) =
      some "paused" := rfl
  simp only [Function.comp, lastStatus, about, status, own, Option.none_or]
  by_cases mine : w = projectId
  · simp [mine]
  · simp [mine, Ne.symm mine]

theorem mem_setActive {projectId : String} (eventId : Nat → String) (now : Now) {r : ProjectRow}
    (h : d.Sound clients clock) (found : d.find projectId = some r) :
    (∀ e ∈ (d.setActive projectId eventId now).2,
      (∃ q ∈ d.rows, q.status = some "active" ∧ q.key = projectOf e ∧ (projectOf e).isSome = true ∧
          verdict e = some "paused") ∨
        projectOf e = some projectId ∧ verdict e = some "active") ∧
      (∀ q ∈ d.rows, q.status = some "active" → ∃ e ∈ (d.setActive projectId eventId now).2,
        projectOf e = q.key ∧ verdict e = some "paused") ∧
      ∃ e ∈ (d.setActive projectId eventId now).2,
        projectOf e = some projectId ∧ verdict e = some "active" := by
  have events : (d.setActive projectId eventId now).2 = (d.active.zipIdx.map fun (id, i) =>
        projectEvent .deactivated id [("project_id", .ofOption id)] (eventId i) now) ++
      [projectEvent .activated projectId [("project_id", .str projectId)]
        (eventId d.active.length) now] := by
    rw [setActive, found]
  have about : ∀ q ∈ d.rows, ∀ i, projectOf (projectEvent .deactivated q.projectId
      [("project_id", .ofOption q.projectId)] (eventId i) now) = q.key ∧ q.key.isSome = true := by
    intro q hq i
    obtain ⟨w, named, own⟩ := h.named q hq
    have own' : q.projectId = some w := own
    rw [own, own']
    exact ⟨projectOf_projectEvent named .., rfl⟩
  rw [events]
  refine ⟨fun e he => ?_, fun q hq active => ?_, _, List.mem_append_right _ List.mem_cons_self,
    projectOf_projectEvent (h.ne_empty found) .., rfl⟩
  · rcases List.mem_append.mp he with he | he
    · obtain ⟨⟨id, i⟩, hid, rfl⟩ := List.mem_map.mp he
      obtain ⟨q, hq, rfl⟩ := List.mem_map.mp (List.fst_mem_of_mem_zipIdx hid)
      obtain ⟨hq, status⟩ := List.mem_filter.mp hq
      obtain ⟨own, some_⟩ := about q hq i
      exact Or.inl ⟨q, hq, of_decide_eq_true status, own.symm, by rw [own]; exact some_, rfl⟩
    · rw [List.mem_singleton.mp he]
      exact Or.inr ⟨projectOf_projectEvent (h.ne_empty found) .., rfl⟩
  · have mine : q.projectId ∈ d.active :=
      List.mem_map.mpr ⟨q, List.mem_filter.mpr ⟨hq, decide_eq_true active⟩, rfl⟩
    obtain ⟨i, hi, here⟩ := List.getElem_of_mem mine
    have at_ : (q.projectId, i) ∈ d.active.zipIdx :=
      List.mk_mem_zipIdx_iff_getElem?.mpr (here ▸ List.getElem?_eq_getElem hi)
    exact ⟨_, List.mem_append_left _ (List.mem_map.mpr ⟨_, at_, rfl⟩), (about q hq i).1, rfl⟩

theorem lastStatus_isSome {w : String} {events : List Event} {e : Event} (he : e ∈ events)
    (about : projectOf e = some w) (says_ : (verdict e).isSome = true) :
    (lastStatus w events).isSome = true := by
  induction events with
  | nil => simp at he
  | cons f events ih =>
    rw [lastStatus, Option.isSome_or, Bool.or_eq_true]
    rcases List.mem_cons.mp he with rfl | he
    · exact Or.inr (by rw [if_pos about]; exact says_)
    · exact Or.inl (ih he)

theorem setActive_status {projectId : String} {eventId : Nat → String} {now : Now} {r : ProjectRow}
    {stored : List Event} (h : d.Sound clients clock) (found : d.find projectId = some r)
    (perm : stored.Perm (d.setActive projectId eventId now).2) {q : ProjectRow} {w : String}
    (held : d.find w = some q) :
    ((lastStatus w stored).elim q.status some =
        if q.key = some projectId then some "active"
        else if q.status = some "active" then some "paused" else q.status) ↔
      (w = projectId → r.status = some "active" → lastStatus projectId stored = some "active") := by
  obtain ⟨events, displaced, activated⟩ := mem_setActive eventId now h found
  have own : q.key = some w := (Table.lookup_key held).2
  have hq : q ∈ d.rows := (Table.lookup_key held).1
  have mine : ∀ p ∈ d.rows, p.key = some w → p = q := fun p hp key =>
    Table.eq_of_key_eq h.unique hp hq (key.trans own.symm) (by rw [key]; exact nofun)
  by_cases at_ : w = projectId
  · subst at_
    have same : q = r := Option.some.inj (held.symm.trans found)
    subst same
    rw [if_pos own]
    simp only [forall_const]
    obtain ⟨e, he, about, says_⟩ := activated
    obtain ⟨s, last⟩ := Option.isSome_iff_exists.mp
      (lastStatus_isSome (perm.mem_iff.mpr he) about (by rw [says_]; rfl))
    rw [last, Option.elim_some]
    refine ⟨fun same _ => same, fun same => ?_⟩
    by_cases active : q.status = some "active"
    · exact same active
    · rw [← last]
      refine lastStatus_of_forall (fun f hf aboutF => ?_) ⟨e, perm.mem_iff.mpr he, about⟩
      rcases events f (perm.mem_iff.mp hf) with ⟨p, hp, status, key, -⟩ | ⟨-, verdictF⟩
      · rw [mine p hp (key.trans aboutF)] at status
        exact absurd status active
      · exact verdictF
  · rw [if_neg (by rw [own]; exact fun same => at_ (Option.some.inj same))]
    refine iff_of_true ?_ fun same => absurd same at_
    by_cases active : q.status = some "active"
    · rw [if_pos active]
      obtain ⟨e, he, about, says_⟩ := displaced q hq active
      have last : lastStatus w stored = some "paused" := by
        refine lastStatus_of_forall (fun f hf aboutF => ?_)
          ⟨e, perm.mem_iff.mpr he, about.trans own⟩
        rcases events f (perm.mem_iff.mp hf) with ⟨p, -, -, -, -, verdictF⟩ | ⟨aboutP, -⟩
        · exact verdictF
        · exact absurd (Option.some.inj (aboutF.symm.trans aboutP)) at_
      rw [last]
      rfl
    · rw [if_neg active]
      have last : lastStatus w stored = none := by
        refine Option.eq_none_iff_forall_ne_some.mpr fun s last => ?_
        obtain ⟨f, hf, aboutF, -⟩ := exists_of_lastStatus last
        rcases events f (perm.mem_iff.mp hf) with ⟨p, hp, status, key, -⟩ | ⟨aboutP, -⟩
        · rw [mine p hp (key.trans aboutF)] at status
          exact active status
        · exact at_ (Option.some.inj (aboutF.symm.trans aboutP))
      rw [last]
      rfl

theorem setActive_step {projectId : String} {eventId : Nat → String} {now : Now} {r : ProjectRow}
    {stored : Arrangement} (h : d.Sound clients clock) (found : d.find projectId = some r)
    (fresh : Fresh clients d now.iso (stored.order (d.setActive projectId eventId now).2)) :
    (d.record (d.setActive projectId eventId now).1
        (stored.order (d.setActive projectId eventId now).2)).Sound clients clock ∧
      (d.Mirrors clients clock →
        ((d.record (d.setActive projectId eventId now).1
          (stored.order (d.setActive projectId eventId now).2)).Mirrors clients clock ↔
        (r.status = some "active" →
          lastStatus projectId (stored.order (d.setActive projectId eventId now).2) =
            some "active"))) := by
  have events := (mem_setActive eventId now h found).1
  have status := fun w q => setActive_status (w := w) (q := q) h found
    (stored.perm (d.setActive projectId eventId now).2)
  have live : (d.setActive projectId eventId now).1 =
      ProjectTable.set (Table.update (·.status = some "active")
        (fun r => { r with status := some "paused" }) d.rows)
        projectId fun r => { r with status := some "active", updatedAt := now.micros } := by
    rw [setActive, found]
  have perm := stored.perm (d.setActive projectId eventId now).2
  generalize stored.order (d.setActive projectId eventId now).2 = order at fresh status perm ⊢
  have rewrites : Rewrites d.rows (d.setActive projectId eventId now).1 := by
    rw [live]
    refine Rewrites.trans (rewrites_update ?_ ?_ ?_) (rewrites_update ?_ ?_ ?_)
    case refine_1 | refine_2 | refine_4 | refine_5 => exact fun _ => rfl
    all_goals exact fun _ _ => Iff.rfl
  have written : ∀ w, profile (d.setActive projectId eventId now).1 w =
      (Table.lookup ProjectRow.key w d.rows).map fun q =>
        (if q.key = some projectId then some "active"
          else if q.status = some "active" then some "paused" else q.status, q.projectPath) := by
    intro w
    rw [live]
    refine (profile_update ?_ ?_ w).trans ?_
    case refine_1 | refine_2 => exact fun _ => rfl
    rw [Table.lookup_update, Option.map_map]
    case hf => exact fun _ => rfl
    refine Option.map_congr fun q _ => ?_
    simp only [Function.comp, decide_eq_true_eq]
    by_cases active : q.status = some "active" <;> simp [active, ProjectRow.key]
  obtain ⟨sound, replay⟩ := h.rewrite fresh rewrites fun e he => by
    rcases events e (perm.mem_iff.mp he) with ⟨q, hq, -, key, some_, -⟩ | ⟨about, -⟩
    · obtain ⟨w, about⟩ := Option.isSome_iff_exists.mp some_
      obtain ⟨p, held⟩ := Table.exists_lookup hq (key.trans about)
      exact ⟨w, about, by rw [present_of_find held]; rfl⟩
    · exact ⟨projectId, about, by rw [present_of_find found]; rfl⟩
  refine ⟨sound, fun mirrors => ?_⟩
  have each :
      ∀ w, (profile ((d.record (d.setActive projectId eventId now).1 order).rebuilt clients clock)
          w =
        profile (d.record (d.setActive projectId eventId now).1 order).rows w) ↔
        ∀ q ∈ d.find w, w = projectId → r.status = some "active" →
          lastStatus projectId order = some "active" := by
    intro w
    change _ = profile (d.setActive projectId eventId now).1 w ↔ _
    rw [replay, mirrors w, written w, find]
    unfold profile
    cases held : Table.lookup ProjectRow.key w d.rows with
    | none => simp
    | some q =>
      have at_ := status w q held
      simpa using at_
  constructor
  · exact fun same => (each projectId).mp (same projectId) r found rfl
  · exact fun harmless w => (each w).mpr fun _ _ _ => harmless

section Register

variable {t : ProjectTable} {w name description : String} {events : List Event} {now : Now}

theorem verdict_registers {e : Event}
    (kind : (∃ eventId, e = projectEvent .created w (registration name description) eventId now) ∨
      ProjectEventType.ofText e.eventType = some .clientAssigned) :
    verdict e = none := by
  rcases kind with ⟨eventId, rfl⟩ | client
  · rfl
  · simp [verdict, client]

theorem lastStatus_registers
    (mine : ∀ e ∈ events, projectOf e = some w ∧
      ((∃ eventId, e = projectEvent .created w (registration name description) eventId now) ∨
        ProjectEventType.ofText e.eventType = some .clientAssigned)) (k : String) :
    lastStatus k events = none := by
  refine Option.eq_none_iff_forall_ne_some.mpr fun s last => ?_
  obtain ⟨e, he, -, spoken⟩ := exists_of_lastStatus last
  rw [verdict_registers (mine e he).2] at spoken
  cases spoken

theorem foldl_registers (named : w ≠ "") (ids : (events.map (·.eventId)).Nodup)
    (new : ∀ e ∈ events, ¬Remembers ProjectRow.marks t e.eventId)
    (mine : ∀ e ∈ events, projectOf e = some w ∧
      ((∃ eventId, e = projectEvent .created w (registration name description) eventId now) ∨
        ProjectEventType.ofText e.eventType = some .clientAssigned))
    (start : profile t w = none ∨ profile t w = some (some "active", none))
    (brought : profile t w = none → ∃ eventId,
      projectEvent .created w (registration name description) eventId now ∈ events) :
    profile (events.foldl (applyEvent clients clock) t) w = some (some "active", none) := by
  induction events generalizing t with
  | nil =>
    rcases start with absent | present
    · obtain ⟨_, he⟩ := brought absent
      cases he
    · exact present
  | cons e events ih =>
    obtain ⟨first, rest⟩ := List.forall_mem_cons.mp mine
    obtain ⟨about, kind⟩ := first
    have silent := verdict_registers kind
    have next := ih (t := applyEvent clients clock t e) (List.nodup_cons.mp ids).2
      (fun f hf seen => (applyEvent_learns about _ seen).elim (new f (List.mem_cons_of_mem _ hf))
        fun same => (List.nodup_cons.mp ids).1 (List.mem_map.mpr ⟨f, hf, same⟩)) rest
    have fresh := new e List.mem_cons_self
    rw [List.foldl_cons]
    rcases start with absent | present
    · rcases kind with ⟨eventId, rfl⟩ | client
      · have here := applyEvent_created clients clock name description now named fresh absent
        exact next (Or.inr here) fun none_ => nomatch here.symm.trans none_
      · refine next (applyEvent_absent about absent client) fun _ => ?_
        obtain ⟨eventId, he⟩ := brought absent
        rcases List.mem_cons.mp he with rfl | he
        · rw [ofText_projectEvent] at client
          cases client
        · exact ⟨eventId, he⟩
    · have here : profile (applyEvent clients clock t e) w = some (some "active", none) := by
        rw [applyEvent_present about fresh (by rw [present]; rfl), present, silent]
        rfl
      exact next (Or.inr here) fun none_ => nomatch here.symm.trans none_

theorem foldl_others {k : String} (mine : ∀ e ∈ events, projectOf e = some w) (other : k ≠ w) :
    profile (events.foldl (applyEvent clients clock) t) k = profile t k := by
  induction events generalizing t with
  | nil => rfl
  | cons e events ih =>
    obtain ⟨first, rest⟩ := List.forall_mem_cons.mp mine
    rw [List.foldl_cons, ih rest, applyEvent_other first other]

theorem profile_append {row : ProjectRow} (own : row.key = some w) (absent : profile t w = none)
    (k : String) :
    profile (t ++ [row]) k = if k = w then some (row.status, row.projectPath) else profile t k := by
  unfold profile Table.lookup at absent ⊢
  rw [List.find?_append, List.find?_singleton, own]
  by_cases at_ : k = w
  · subst at_
    rw [Option.map_eq_none_iff.mp absent]
    simp
  · simp [at_, Ne.symm at_]

theorem register_step {path : Option String} {projectId : String} {client : Option String}
    {eventId : Nat → String} {stored : Arrangement} (h : d.Sound clients clock)
    (named : projectId ≠ "") (absent : d.find projectId = none) (fresh : Fresh clients d now.iso
      (stored.order (d.register name description path projectId client eventId now).2)) :
    (d.record (d.register name description path projectId client eventId now).1
        (stored.order (d.register name description path projectId client eventId now).2)).Sound
          clients clock ∧
      (d.Mirrors clients clock →
        ((d.record (d.register name description path projectId client eventId now).1
          (stored.order (d.register name description path projectId client eventId now).2)).Mirrors
            clients clock ↔ path.all d.registered = true)) := by
  by_cases there : path.any d.registered = true
  · have same : d.register name description path projectId client eventId now = (d.rows, []) :=
      if_pos there
    obtain ⟨sound, mirrored⟩ := untouched_step h same fresh
    refine ⟨sound, fun mirrors => iff_of_true (mirrored mirrors) ?_⟩
    cases path with
    | none => rfl
    | some path => exact there
  · have perm := stored.perm (d.register name description path projectId client eventId now).2
    generalize stored.order (d.register name description path projectId client eventId now).2 =
      order
      at fresh perm ⊢
    rw [register, if_neg there] at perm ⊢
    set row : ProjectRow := {
      projectId := projectId, name := name, description := description, status := some "active"
      projectPath := path, createdAt := some now.iso, updatedAt := now.micros }
    have missing : profile d.rows projectId = none := by
      unfold profile
      rw [show Table.lookup ProjectRow.key projectId d.rows = none from absent]
      rfl
    have live : ∀ k, profile (d.rows ++ [row]) k =
        if k = projectId then some (some "active", path) else profile d.rows k :=
      profile_append rfl missing
    have unseen : profile (d.rebuilt clients clock) projectId = none :=
      Option.isSome_eq_false_iff.mp ((h.keys projectId).trans (by rw [missing]; rfl)) |>
        Option.isNone_iff_eq_none.mp
    have mine : ∀ e ∈ order, projectOf e = some projectId ∧
        ((∃ eventId, e = projectEvent .created projectId (registration name description)
          eventId now) ∨
          ProjectEventType.ofText e.eventType = some .clientAssigned) := by
      intro e he
      rcases List.mem_cons.mp (perm.mem_iff.mp he) with rfl | he
      · exact ⟨projectOf_projectEvent named .., Or.inl ⟨_, rfl⟩⟩
      · obtain ⟨clientId, -, rfl⟩ := List.mem_map.mp he
        exact ⟨projectOf_projectEvent named .., Or.inr (ofText_projectEvent ..)⟩
    obtain ⟨-, -, rebuilt⟩ := h.record_rebuilt (d.rows ++ [row]) fresh
    have replay : ∀ k, profile ((d.record (d.rows ++ [row]) order).rebuilt clients clock) k =
        if k = projectId then some (some "active", none) else profile
          (d.rebuilt clients clock) k := by
      intro k
      rw [rebuilt]
      split
      next at_ =>
        subst at_
        exact foldl_registers named fresh.ids (fun e he => fresh_unseen h fresh he) mine
          (Or.inl unseen)
          fun _ => ⟨_, perm.mem_iff.mpr List.mem_cons_self⟩
      next other => exact foldl_others (fun e he => (mine e he).1) other
    have unregistered : path.all d.registered = true ↔ path = none := by
      cases path with
      | none => simp
      | some path => simpa using there
    refine ⟨h.record fresh ?_ ?_ ?_ ?_ ?_ ?_ ?_ ?_, fun mirrors => ?_⟩
    · refine (Table.append_unique_iff h.unique row).mpr fun r hr same => ?_
      obtain ⟨q, held⟩ := Table.exists_lookup hr same.1
      exact Option.some_ne_none q (held.symm.trans absent)
    · intro r hr
      rcases List.mem_append.mp hr with hr | hr
      · exact h.named r hr
      · rw [List.mem_singleton.mp hr]
        exact ⟨projectId, named, rfl⟩
    · rintro id ⟨r, hr, seen⟩
      rcases List.mem_append.mp hr with hr | hr
      · exact ⟨r, hr, seen⟩
      · rw [List.mem_singleton.mp hr] at seen
        simp [ProjectRow.marks, row] at seen
    · intro w present
      rw [live]
      split
      · rfl
      · exact present
    · intro e he
      exact ⟨projectId, (mine e he).1, by rw [live, if_pos rfl]; rfl⟩
    · intro w
      rw [replay, live]
      split
      · rfl
      · exact h.keys w
    · intro w x hx
      rw [replay] at hx
      split at hx
      · cases hx
        rfl
      · exact h.pathless w x hx
    · intro w s last
      rw [lastStatus_append, lastStatus_registers mine, Option.none_or] at last
      have held := h.settled w s last
      rw [replay]
      split
      next at_ =>
        rw [at_, unseen] at held
        cases held
      next => exact held
    · rw [unregistered]
      have each : ∀ w, (profile ((d.record (d.rows ++ [row]) order).rebuilt clients clock) w =
          profile (d.record (d.rows ++ [row]) order).rows w) ↔ (w = projectId → path = none) := by
        intro w
        change _ = profile (d.rows ++ [row]) w ↔ _
        rw [replay, live]
        split
        next at_ => simp [at_, eq_comm]
        next other => exact iff_of_true (mirrors w) fun same => absurd same other
      exact ⟨fun same => (each projectId).mp (same projectId) rfl, fun pathless w =>
        (each w).mpr fun _ => pathless⟩

end Register

section Steps

theorem mem_perform {eventId : Nat → String} {now : Now} {call : ProjectCall} {e : Event}
    (he : e ∈ (d.perform eventId now call).2) :
    ∃ type projectId fields id, e = projectEvent type projectId fields id now := by
  cases call with
  | register name description path projectId client =>
    change e ∈ (d.register name description path projectId client eventId now).2 at he
    unfold register at he
    split at he
    · simp at he
    · rcases List.mem_cons.mp he with rfl | he
      · exact ⟨_, _, _, _, rfl⟩
      · obtain ⟨_, -, rfl⟩ := List.mem_map.mp he
        exact ⟨_, _, _, _, rfl⟩
  | setActive projectId =>
    change e ∈ (d.setActive projectId eventId now).2 at he
    unfold setActive at he
    split at he
    · simp at he
    · rcases List.mem_append.mp he with he | he
      · obtain ⟨_, -, rfl⟩ := List.mem_map.mp he
        exact ⟨_, _, _, _, rfl⟩
      · rw [List.mem_singleton.mp he]
        exact ⟨_, _, _, _, rfl⟩
  | deactivate projectId =>
    change e ∈ (d.deactivate projectId eventId now).2 at he
    unfold deactivate at he
    split at he
    · simp at he
    · rw [List.mem_singleton.mp he]
      exact ⟨_, _, _, _, rfl⟩

theorem fresh_perform {eventId : Nat → String} {now : Now} {call : ProjectCall}
    {stored : Arrangement} (ids : ((d.perform eventId now call).2.map (·.eventId)).Nodup)
    (later : ∀ f ∈ d.log, f.eventTimestamp < now.iso ∧
      ∀ e ∈ (d.perform eventId now call).2, f.eventId ≠ e.eventId) :
    Fresh clients d now.iso (stored.order (d.perform eventId now call).2) where
  ids := ((stored.perm _).map _).nodup_iff.mpr ids
  stamps := by
    intro e he
    obtain ⟨_, _, _, _, rfl⟩ := mem_perform ((stored.perm _).mem_iff.mp he)
    rfl
  later :=
    fun f hf => ⟨(later f hf).1, fun e he => (later f hf).2 e ((stored.perm _).mem_iff.mp he)⟩
  consumed := by
    intro e he
    obtain ⟨_, _, _, _, rfl⟩ := mem_perform ((stored.perm _).mem_iff.mp he)
    exact consumes_projectEvent ..

theorem step_call (clients : Text → Bool) (d : Roster) (now : Now) (eventId : Nat → String)
    (stored : Arrangement) (call : ProjectCall) :
    d.step clients (.call now eventId stored call) =
      if d.admits call ∧ ((d.perform eventId now call).2.map (·.eventId)).Nodup ∧
          ∀ f ∈ d.log, f.eventTimestamp < now.iso ∧
            ∀ e ∈ (d.perform eventId now call).2, f.eventId ≠ e.eventId then
        some (d.record (d.perform eventId now call).1 (stored.order (d.perform eventId now call).2))
      else none := rfl

theorem Sound.step {a : RosterAction} {d' : Roster} (h : d.Sound clients clock)
    (steps : d.step clients a = some d') :
    d'.Sound clients clock ∧ (d.Mirrors clients clock →
      (d'.Mirrors clients clock ↔ d.Harmless a)) := by
  cases a with
  | tick pass =>
    cases steps
    exact ⟨(h.tick pass).1, fun mirrors => iff_of_true (h.tick_mirrors mirrors pass) trivial⟩
  | call now eventId stored call =>
    rw [step_call, Option.ite_none_right_eq_some, Option.some.injEq] at steps
    obtain ⟨⟨admitted, ids, later⟩, rfl⟩ := steps
    have fresh : Fresh clients d now.iso (stored.order (d.perform eventId now call).2) :=
      fresh_perform ids later
    cases call with
    | register name description path projectId client =>
      have absent : d.find projectId = none := Option.isNone_iff_eq_none.mp admitted
      exact register_step h projectId.2 absent fresh
    | setActive projectId =>
      cases found : d.find projectId with
      | none =>
        have same : d.setActive projectId eventId now = (d.rows, []) := by rw [setActive, found]
        obtain ⟨sound, mirrored⟩ := untouched_step h same fresh
        refine ⟨sound, fun mirrors => iff_of_true (mirrored mirrors) ?_⟩
        simp [Harmless, found]
      | some r =>
        obtain ⟨sound, mirrored⟩ := setActive_step h found fresh
        refine ⟨sound, fun mirrors => (mirrored mirrors).trans ?_⟩
        simp [Harmless, found]
    | deactivate projectId =>
      cases found : d.find projectId with
      | none =>
        have same : d.deactivate projectId eventId now = (d.rows, []) := by rw [deactivate, found]
        obtain ⟨sound, mirrored⟩ := untouched_step h same fresh
        exact ⟨sound, fun mirrors => iff_of_true (mirrored mirrors) trivial⟩
      | some r =>
        obtain ⟨sound, mirrored⟩ := deactivate_step h found fresh
        exact ⟨sound, fun mirrors => iff_of_true (mirrored mirrors) trivial⟩

end Steps

end Calls

theorem log_init : ({} : Roster).log = [] := rfl

theorem rows_init : ({} : Roster).rows = [] := rfl

theorem rebuilt_init (clients : Text → Bool) (clock : Nat) :
    ({} : Roster).rebuilt clients clock = [] := by
  rw [rebuilt_eq (by rw [log_init]; exact List.Pairwise.nil) (by simp [log_init]), log_init]
  rfl

theorem sound_init (clients : Text → Bool) (clock : Nat) : ({} : Roster).Sound clients clock where
  sorted := by rw [log_init]; exact List.Pairwise.nil
  ids := by rw [log_init]; exact List.nodup_nil
  consumed := by simp [log_init]
  unique := by rw [rows_init]; exact List.Pairwise.nil
  named := by simp [rows_init]
  handled := ⟨[], log_init, by simp [rows_init, Remembers]⟩
  replayed := by simp [rebuilt_init, Remembers]
  keys := by simp [rebuilt_init, rows_init]
  pathless := by simp [rebuilt_init, profile, Table.lookup]
  about := by simp
  settled := by simp [lastStatus]

theorem mirrors_init (clients : Text → Bool) (clock : Nat) :
    ({} : Roster).Mirrors clients clock := by
  simp [Mirrors, rebuilt_init, rows_init]

/-- Along a run the replay keeps the status and the path of every project exactly when every call of
the run is harmless. -/
theorem mirrored_iff_harmless (clients : Text → Bool) (clock : Nat) (actions : List RosterAction) :
    (∀ x ∈ (machine clients).transitions {} actions, x.after.Mirrors clients clock) ↔
      ∀ x ∈ (machine clients).transitions {} actions, x.before.Harmless x.label :=
  (machine clients).forall_after_iff_forall_guard (J := Roster.Sound clients clock)
    (fun _ _ _ h steps => (h.step steps).1)
    (fun _ _ _ h mirrors steps => (h.step steps).2 mirrors)
    (sound_init clients clock) (mirrors_init clients clock) actions

def lastFirst : Arrangement := ⟨List.reverse, List.reverse_perm⟩

def morning : Now := ⟨"2026-03-01T09:00:00+00:00", 1⟩

def noon : Now := ⟨"2026-03-01T12:00:00+00:00", 2⟩

def registerAtlas (path : Option String) : RosterAction :=
  .call morning (fun i => s!"m{i}") lastFirst (.register "Atlas" "" path ⟨"atlas", by decide⟩ none)

def activateAtlas : RosterAction :=
  .call noon (fun i => s!"n{i}") lastFirst (.setActive "atlas")

/-- A project registered with its path is replayed without it. And where an active project is
activated, a replay that meets its deactivated event after its activated event pauses it. -/
theorem path_lost :
    (∃ d, (machine fun _ => false).run {} [registerAtlas (some "/work/atlas")] = some d ∧
      ¬d.Mirrors (fun _ => false) 0) ∧
    ∃ d, (machine fun _ => false).run {} [registerAtlas none, activateAtlas] = some d ∧
      ¬d.Mirrors (fun _ => false) 0 := by
  refine ⟨⟨_, rfl, fun mirrors => ?_⟩, ⟨_, rfl, fun mirrors => ?_⟩⟩
  · exact absurd (mirrors "atlas") (by decide +kernel)
  · exact absurd (mirrors "atlas") (by decide +kernel)

end Roster

end DreamStudio.Projects
