import DreamStudio.Projections.Life
import Mathlib.Data.List.TakeWhile

namespace DreamStudio.Projections

open Library WorkOrders

namespace Change

/-- The changes that set a status on a row that is there. -/
def moves : Change → Bool
  | .set _ => true
  | .block _ => true
  | .unblock _ => true
  | _ => false

def pairs : Change → Bool
  | .block _ => true
  | .unblock _ => true
  | _ => false

def phase : Change → Option WorkOrderStatus
  | .block phase => phase
  | _ => none

/-- The status a change sets whatever came before. -/
def fixed : Change → Option WorkOrderStatus
  | .set s => some s
  | .block _ => some .blocked
  | .unblock named => named
  | _ => none

end Change

section Moves

variable (remembers : Bool) (w : String)

def movesOf (events : List Event) : List Event :=
  events.filter fun e => subject e = some w ∧ (change remembers e).moves = true

variable {remembers w}

theorem mem_movesOf {events : List Event} {e : Event} :
    e ∈ movesOf remembers w events ↔
      e ∈ events ∧ subject e = some w ∧ (change remembers e).moves = true := by
  simp [movesOf]

variable (remembers)

def memory : List Event → Option WorkOrderStatus
  | [] => none
  | e :: older =>
    if (change remembers e).pairs then (change remembers e).phase else memory older

/-- The status, the newest event first. An event that is the last one applied is not applied
again. -/
def statusAfter : List Event → WorkOrderStatus
  | [] => creationStatus
  | e :: older =>
    if older.head?.map (·.eventId) = some e.eventId then statusAfter older
    else ((change remembers e).fixed.or ((memory remembers older).bind openStatus)).getD .inProgress

structure Tracks (w : String) (events : List Event) (l : Life) : Prop where
  status : l.status = statusAfter remembers (movesOf remembers w events)
  blockedFrom : l.blockedFrom = memory remembers (movesOf remembers w events)
  last : ∀ id, l.lastEventId = some id →
    (movesOf remembers w events).head?.map (·.eventId) = some id ∨
      ∃ f ∈ events, f.eventId = id ∧ change remembers f = .create
  head : ∀ f ∈ (movesOf remembers w events).head?, l.lastEventId = some f.eventId
  source : ∀ id, l.sourceEventId = some id →
    ∃ f ∈ events, f.eventId = id ∧ change remembers f = .create

def TracksLife (w : String) (events : List Event) : Option Life → Prop
  | none => ∀ e ∈ events, subject e ≠ some w
  | some l => (∃ e ∈ events, subject e = some w) ∧ Tracks remembers w events l

variable {remembers}

theorem movesOf_cons_of_not {e : Event} (events : List Event)
    (h : ¬ (subject e = some w ∧ (change remembers e).moves = true)) :
    movesOf remembers w (e :: events) = movesOf remembers w events := by
  simp [movesOf, h]

theorem movesOf_cons_of {e : Event} (events : List Event) (hw : subject e = some w)
    (moves : (change remembers e).moves = true) :
    movesOf remembers w (e :: events) = e :: movesOf remembers w events := by
  simp [movesOf, hw, moves]

theorem Tracks.still {events : List Event} {e : Event} {l l' : Life}
    (h : Tracks remembers w events l)
    (not : ¬ (subject e = some w ∧ (change remembers e).moves = true))
    (status : l'.status = l.status) (blockedFrom : l'.blockedFrom = l.blockedFrom)
    (last : l'.lastEventId = l.lastEventId)
    (source : ∀ id, l'.sourceEventId = some id →
      l.sourceEventId = some id ∨ e.eventId = id ∧ change remembers e = .create) :
    Tracks remembers w (e :: events) l' where
  status := by rw [movesOf_cons_of_not events not, status, h.status]
  blockedFrom := by rw [movesOf_cons_of_not events not, blockedFrom, h.blockedFrom]
  last := by
    intro id hid
    rw [movesOf_cons_of_not events not]
    rcases h.last id (last ▸ hid) with head | ⟨f, hf, hrest⟩
    · exact Or.inl head
    · exact Or.inr ⟨f, List.mem_cons_of_mem _ hf, hrest⟩
  head := by
    rw [movesOf_cons_of_not events not, last]
    exact h.head
  source := by
    intro id hid
    rcases source id hid with old | ⟨he, create⟩
    · obtain ⟨f, hf, hrest⟩ := h.source id old
      exact ⟨f, List.mem_cons_of_mem _ hf, hrest⟩
    · exact ⟨e, List.mem_cons_self, he, create⟩

theorem TracksLife.getD {events : List Event} {l : Option Life}
    (h : TracksLife remembers w events l) : Tracks remembers w events (l.getD {}) := by
  cases l with
  | some l => exact h.2
  | none =>
    have still : movesOf remembers w events = [] := by
      rw [movesOf, List.filter_eq_nil_iff]
      intro e he
      simp [h e he]
    exact {
      status := by rw [still]; rfl
      blockedFrom := by rw [still]; rfl
      last := nofun
      head := by rw [still]; exact nofun
      source := nofun }

theorem Life.apply_moves {c : Change} (moves : c.moves = true) (eventId : String)
    (l : Option Life) :
    Life.apply eventId l c =
      { l.getD {} with
        status := (c.fixed.or ((l.getD {}).blockedFrom.bind openStatus)).getD .inProgress
        blockedFrom := if c.pairs then c.phase else (l.getD {}).blockedFrom
        lastEventId := some eventId } := by
  cases c with
  | create => cases moves
  | skeleton => cases moves
  | set s => rfl
  | block phase => rfl
  | unblock named => rfl

theorem TracksLife.move {older : List Event} {e : Event} {l : Option Life}
    (h : TracksLife remembers w older l) (hw : subject e = some w)
    (moves : (change remembers e).moves = true) (ids : ∀ f ∈ older, f.eventId = e.eventId → f = e) :
    TracksLife remembers w (e :: older) (lifeStep remembers w l e) := by
  have base := h.getD
  have never_created : ¬ ∃ f ∈ older, f.eventId = e.eventId ∧ change remembers f = .create := by
    rintro ⟨f, hf, hid, create⟩
    rw [ids f hf hid] at create
    rw [create] at moves
    cases moves
  unfold lifeStep
  split
  next new =>
    refine ⟨⟨e, List.mem_cons_self, hw⟩, ?_⟩
    have not_again : (movesOf remembers w older).head?.map (·.eventId) ≠ some e.eventId := by
      intro again
      obtain ⟨f, hf, hid⟩ := Option.map_eq_some_iff.mp again
      have last := base.head f hf
      cases l with
      | none => cases last
      | some l =>
        rw [hid, Option.getD_some] at last
        simp [Life.processed, last] at new
    rw [Life.apply_moves moves]
    exact {
      status := by
        rw [movesOf_cons_of older hw moves, statusAfter, if_neg not_again, base.blockedFrom]
      blockedFrom := by rw [movesOf_cons_of older hw moves, memory, base.blockedFrom]
      last := by
        intro id hid
        rw [movesOf_cons_of older hw moves]
        exact Or.inl hid
      head := by
        rw [movesOf_cons_of older hw moves]
        rintro f ⟨⟩
        rfl
      source := by
        intro id hid
        obtain ⟨f, hf, hrest⟩ := base.source id hid
        exact ⟨f, List.mem_cons_of_mem _ hf, hrest⟩ }
  next old =>
    cases l with
    | none => exact absurd ⟨hw, rfl⟩ old
    | some l =>
      have applied : l.lastEventId = some e.eventId := by
        by_contra last
        have source : l.sourceEventId = some e.eventId := by
          by_contra source
          exact old ⟨hw, by simp [Life.processed, source, last]⟩
        exact never_created (base.source _ source)
      have again := (base.last _ applied).resolve_right never_created
      obtain ⟨f, hf, hid⟩ := Option.map_eq_some_iff.mp again
      have hf' : f ∈ older := (mem_movesOf.mp (List.mem_of_mem_head? hf)).1
      obtain rfl := ids f hf' hid
      refine ⟨⟨f, List.mem_cons_self, hw⟩, ?_⟩
      exact {
        status := by
          rw [movesOf_cons_of older hw moves, statusAfter, if_pos again]
          exact base.status
        blockedFrom := by
          rw [movesOf_cons_of older hw moves, memory]
          split
          next pairs =>
            cases rest : movesOf remembers w older with
            | nil => rw [rest] at hf; cases hf
            | cons g gs =>
              rw [rest] at hf
              cases hf
              have := base.blockedFrom
              rw [rest, memory, if_pos pairs] at this
              exact this
          next => exact base.blockedFrom
        last := by
          intro id hid
          rw [movesOf_cons_of older hw moves]
          exact Or.inl (applied.symm.trans hid)
        head := by
          rw [movesOf_cons_of older hw moves]
          rintro g ⟨⟩
          exact applied
        source := by
          intro id hid
          obtain ⟨g, hg, hrest⟩ := base.source id hid
          exact ⟨g, List.mem_cons_of_mem _ hg, hrest⟩ }

theorem TracksLife.stay {older : List Event} {e : Event} {l : Option Life}
    (h : TracksLife remembers w older l) (hw : subject e = some w)
    (stays : (change remembers e).moves = false) :
    TracksLife remembers w (e :: older) (lifeStep remembers w l e) := by
  have not : ¬ (subject e = some w ∧ (change remembers e).moves = true) := fun h => by
    simp [stays] at h
  have seen : ∃ f ∈ e :: older, subject f = some w := ⟨e, List.mem_cons_self, hw⟩
  have base := h.getD
  unfold lifeStep
  split
  next new =>
    refine ⟨seen, ?_⟩
    cases hc : change remembers e with
    | set s => rw [hc] at stays; cases stays
    | block phase => rw [hc] at stays; cases stays
    | unblock named => rw [hc] at stays; cases stays
    | skeleton => exact base.still not rfl rfl rfl fun _ => Or.inl
    | create =>
      cases l with
      | some l =>
        refine base.still not rfl rfl rfl fun id hid => ?_
        simp only [Life.apply, coalesce] at hid
        cases source : l.sourceEventId with
        | none =>
          rw [source] at hid
          exact Or.inr ⟨Option.some.inj hid, hc⟩
        | some s =>
          rw [source] at hid
          exact Or.inl (source.trans hid)
      | none =>
        have created : ∀ id, some e.eventId = some id →
            ∃ f ∈ e :: older, f.eventId = id ∧ change remembers f = .create :=
          fun id hid => ⟨e, List.mem_cons_self, Option.some.inj hid, hc⟩
        have still : movesOf remembers w (e :: older) = [] := by
          rw [movesOf, List.filter_eq_nil_iff]
          intro f hf
          rcases List.mem_cons.mp hf with rfl | hf
          · simpa using not
          · simp [h f hf]
        exact {
          status := by rw [still]; rfl
          blockedFrom := by rw [still]; rfl
          last := fun id hid => Or.inr (created id hid)
          head := by simp [still]
          source := created }
  next old =>
    cases l with
    | none => exact absurd ⟨hw, rfl⟩ old
    | some l => exact ⟨seen, base.still not rfl rfl rfl fun _ => Or.inl⟩

theorem replay_tracks {events : List Event}
    (ids : ∀ e ∈ events, ∀ f ∈ events, e.eventId = f.eventId → e = f) :
    TracksLife remembers w events (replay remembers w events) := by
  induction events with
  | nil => exact nofun
  | cons e older ih =>
    have ih := ih fun f hf g hg => ids f (List.mem_cons_of_mem _ hf) g (List.mem_cons_of_mem _ hg)
    unfold replay
    by_cases hw : subject e = some w
    · by_cases moves : (change remembers e).moves = true
      · exact ih.move hw moves fun f hf same =>
          ids f (List.mem_cons_of_mem _ hf) e List.mem_cons_self same
      · exact ih.stay hw (by simpa using moves)
    · have not : ¬ (subject e = some w ∧ (change remembers e).moves = true) := fun h => hw h.1
      unfold lifeStep
      rw [if_neg fun h => hw h.1]
      cases life : replay remembers w older with
      | none =>
        rw [life] at ih
        exact List.forall_mem_cons.mpr ⟨hw, ih⟩
      | some l =>
        rw [life] at ih
        obtain ⟨f, hf, hfw⟩ := ih.1
        exact ⟨⟨f, List.mem_cons_of_mem _ hf, hfw⟩, ih.2.still not rfl rfl rfl fun _ => Or.inl⟩

end Moves

section Order

variable (remembers : Bool)

/-- `e` moves the work order of `f` and comes before it in time. -/
def Precedes (e f : Event) : Prop :=
  subject e = subject f ∧ (change remembers e).moves = true ∧ e.eventTimestamp < f.eventTimestamp

/-- No event that precedes `f` was applied after `f`; the newest application first. -/
def Settled (f : Event) : List Event → Prop
  | [] => True
  | e :: older => e.eventId = f.eventId ∨ ¬ Precedes remembers e f ∧ Settled f older

/-- `u` was applied more recently than `b`; the newest application first. -/
def Newer (u b : Event) : List Event → Prop
  | [] => False
  | e :: older => e.eventId = u.eventId ∨ e.eventId ≠ b.eventId ∧ Newer u b older

/-- To apply `x` now forgets a phase: `x` lies between a blocked event `b` that recorded one and
the unblocked event `u` that relies on it, and `u` has been applied since `b`. -/
def Forgets (events applied : List Event) (x : Event) : Prop :=
  ∃ b ∈ events, ∃ u ∈ events,
    subject b = subject x ∧ subject u = subject x ∧
    (change remembers x).moves = true ∧ (change remembers x).pairs = false ∧
    (change remembers b).phase ≠ none ∧ (change remembers b).phase ≠ some .inProgress ∧
    change remembers u = .unblock none ∧
    b.eventTimestamp < x.eventTimestamp ∧ x.eventTimestamp < u.eventTimestamp ∧
    (∀ v ∈ events, subject v = subject x → (change remembers v).pairs = true →
      v.eventTimestamp ≤ b.eventTimestamp ∨ u.eventTimestamp ≤ v.eventTimestamp) ∧
    Newer u b applied

variable {remembers}

theorem Settled.not_precedes {f e : Event} {newer older : List Event}
    (h : Settled remembers f (newer ++ e :: older)) (apart : ∀ g ∈ newer, g.eventId ≠ f.eventId)
    (he : e.eventId ≠ f.eventId) : ¬ Precedes remembers e f := by
  induction newer with
  | nil => exact (h.resolve_left he).1
  | cons g newer ih =>
    exact ih (h.resolve_left (apart g List.mem_cons_self)).2
      fun k hk => apart k (List.mem_cons_of_mem _ hk)

theorem newer_append {u b : Event} {newer : List Event} (apart : ∀ g ∈ newer, g.eventId ≠ b.eventId)
    (older : List Event) : Newer u b (newer ++ u :: older) := by
  induction newer with
  | nil => exact Or.inl rfl
  | cons g newer ih =>
    exact Or.inr ⟨apart g List.mem_cons_self, ih fun k hk => apart k (List.mem_cons_of_mem _ hk)⟩

theorem Newer.exists_mem {u b : Event} {applied : List Event} (h : Newer u b applied) :
    ∃ f ∈ applied, f.eventId = u.eventId := by
  induction applied with
  | nil => exact h.elim
  | cons e older ih =>
    rcases h with same | ⟨-, h⟩
    · exact ⟨e, List.mem_cons_self, same⟩
    · obtain ⟨f, hf, hid⟩ := ih h
      exact ⟨f, List.mem_cons_of_mem _ hf, hid⟩

theorem Forgets.of_append {events applied : List Event} {e x : Event}
    (h : Forgets remembers (events ++ [e]) applied x) (sub : applied ⊆ events) (hx : x ∈ events)
    (newest : ∀ f ∈ events, f.eventTimestamp < e.eventTimestamp)
    (fresh : ∀ f ∈ events, f.eventId ≠ e.eventId) : Forgets remembers events applied x := by
  obtain ⟨b, hb, u, hu, hbx, hux, moves, silent, recorded, open_, asks, before, after, closest,
    newer⟩ := h
  have old : ∀ {f}, f ∈ events ++ [e] → f ≠ e → f ∈ events := fun hf hne =>
    (List.mem_append.mp hf).resolve_right fun h => hne (List.mem_singleton.mp h)
  have hb' : b ∈ events := old hb fun same => lt_asymm before (same ▸ newest x hx)
  have hu' : u ∈ events := by
    refine old hu fun same => ?_
    obtain ⟨f, hf, hid⟩ := newer.exists_mem
    exact fresh f (sub hf) (hid.trans (congrArg _ same))
  exact ⟨b, hb', u, hu', hbx, hux, moves, silent, recorded, open_, asks, before, after,
    fun v hv => closest v (List.mem_append_left _ hv), newer⟩

theorem Forgets.of_filter {events applied : List Event} {p : Event → Bool} {x : Event}
    (h : Forgets remembers (events.filter p) applied x)
    (writers : ∀ v, (change remembers v).pairs = true → p v = true) :
    Forgets remembers events applied x := by
  obtain ⟨b, hb, u, hu, hbx, hux, moves, silent, recorded, open_, asks, before, after, closest,
    newer⟩ := h
  exact ⟨b, (List.mem_filter.mp hb).1, u, (List.mem_filter.mp hu).1, hbx, hux, moves, silent,
    recorded, open_, asks, before, after, fun v hv hvx pairs =>
      closest v (List.mem_filter.mpr ⟨hv, writers v pairs⟩) hvx pairs, newer⟩

theorem pairs_moves {c : Change} (h : c.pairs = true) : c.moves = true := by
  cases c <;> first | rfl | exact h

theorem statusAfter_of_fixed {e : Event} {s : WorkOrderStatus} {older : List Event}
    (h : (change remembers e).fixed = some s) (ids : ∀ f ∈ older, f.eventId = e.eventId → f = e) :
    statusAfter remembers (e :: older) = s := by
  induction older with
  | nil => simp [statusAfter, h]
  | cons f older ih =>
    unfold statusAfter
    split
    next again =>
      have same : f = e := ids f List.mem_cons_self (Option.some.inj again)
      subst same
      exact ih fun g hg => ids g (List.mem_cons_of_mem _ hg)
    next => simp [h]

theorem statusAfter_of_unblock {u : Event} {older : List Event}
    (h : change remembers u = .unblock none) (ids : ∀ f ∈ older, f.eventId = u.eventId → f = u) :
    statusAfter remembers (u :: older) =
      ((memory remembers (older.dropWhile (·.eventId = u.eventId))).bind openStatus).getD
        .inProgress := by
  induction older with
  | nil => simp [statusAfter, h, Change.fixed]
  | cons f older ih =>
    unfold statusAfter
    split
    next again =>
      have same : f = u := ids f List.mem_cons_self (Option.some.inj again)
      subst same
      rw [List.dropWhile_cons_of_pos (by simp)]
      exact ih fun g hg => ids g (List.mem_cons_of_mem _ hg)
    next once =>
      have apart : ¬ f.eventId = u.eventId := fun same => once (congrArg some same)
      rw [List.dropWhile_cons_of_neg (by simpa using apart)]
      simp [h, Change.fixed]

theorem memory_eq_find (events : List Event) :
    memory remembers events =
      (events.find? fun e => (change remembers e).pairs).bind fun e =>
        (change remembers e).phase := by
  induction events with
  | nil => rfl
  | cons e older ih =>
    unfold memory
    rw [List.find?_cons]
    cases pairs : (change remembers e).pairs <;> simp [ih]

/-- The applications of a run that is through with its events: each was applied, none was left
behind an older one, and none was applied where it forgets a phase. -/
structure CaughtUp (remembers : Bool) (events applied : List Event) : Prop where
  ids : ∀ e ∈ events, ∀ f ∈ events, e.eventId = f.eventId → e = f
  sorted : events.Pairwise fun e f => e.eventTimestamp < f.eventTimestamp
  sub : applied ⊆ events
  all : events ⊆ applied
  settled : ∀ f ∈ events, (change remembers f).moves = true → Settled remembers f applied
  kept : ∀ newer x older, applied = newer ++ x :: older → ¬ Forgets remembers events older x

theorem exists_split {w : String} {applied newer older : List Event} {x : Event}
    (h : movesOf remembers w applied = newer ++ x :: older) :
    ∃ before after, applied = before ++ x :: after ∧ movesOf remembers w before = newer ∧
      movesOf remembers w after = older := by
  obtain ⟨before, rest, rfl, hbefore, hrest⟩ := List.filter_eq_append_iff.mp h
  obtain ⟨between, after, rfl, hbetween, -, hafter⟩ := List.filter_eq_cons_iff.mp hrest
  refine ⟨before ++ between, after, by simp, ?_, hafter⟩
  rw [movesOf, List.filter_append, List.filter_eq_nil_iff.mpr hbetween, List.append_nil]
  exact hbefore

namespace CaughtUp

variable {events applied : List Event} {w : String}

theorem mem_reverse_iff (h : CaughtUp remembers events applied) {e : Event} :
    e ∈ movesOf remembers w events.reverse ↔ e ∈ movesOf remembers w applied := by
  simp only [mem_movesOf, List.mem_reverse]
  exact and_congr_left fun _ => ⟨fun he => h.all he, fun he => h.sub he⟩

theorem eq_of_id (h : CaughtUp remembers events applied) {e f : Event}
    (he : e ∈ movesOf remembers w applied) (hf : f ∈ movesOf remembers w applied)
    (same : e.eventId = f.eventId) : e = f :=
  h.ids e (h.sub (mem_movesOf.mp he).1) f (h.sub (mem_movesOf.mp hf).1) same

theorem not_before (h : CaughtUp remembers events applied) {newer older : List Event} {e f : Event}
    (split : movesOf remembers w applied = newer ++ e :: older)
    (hf : f ∈ movesOf remembers w applied) (apart : f ∉ newer) (he : e ≠ f) :
    ¬ e.eventTimestamp < f.eventTimestamp := by
  obtain ⟨before, after, rfl, hbefore, -⟩ := exists_split split
  obtain ⟨stored, hw, moves⟩ := mem_movesOf.mp hf
  have he' : e ∈ movesOf remembers w (before ++ e :: after) := by
    rw [split]
    exact List.mem_append_right _ List.mem_cons_self
  have settled := h.settled f (h.sub stored) moves
  intro earlier
  refine settled.not_precedes ?_ ?_
    ⟨(mem_movesOf.mp he').2.1.trans hw.symm, (mem_movesOf.mp he').2.2, earlier⟩
  · intro g hg same
    have : g = f := h.ids g (h.sub (List.mem_append_left _ hg)) f (h.sub stored) same
    subst this
    exact apart (hbefore ▸ mem_movesOf.mpr ⟨hg, hw, moves⟩)
  · exact fun same => he (h.eq_of_id he' hf same)

theorem descending (h : CaughtUp remembers events applied) :
    (movesOf remembers w events.reverse).Pairwise fun e f =>
      f.eventTimestamp < e.eventTimestamp :=
  (List.pairwise_reverse.mpr h.sorted).filter _

theorem head_eq (h : CaughtUp remembers events applied) {n last : Event} {m older : List Event}
    (ordered : movesOf remembers w events.reverse = n :: m)
    (done : movesOf remembers w applied = last :: older) : last = n := by
  have hn : n ∈ movesOf remembers w applied := by
    rw [← h.mem_reverse_iff, ordered]
    exact List.mem_cons_self
  have hlast : last ∈ n :: m := by
    rw [← ordered, h.mem_reverse_iff, done]
    exact List.mem_cons_self
  have descending := h.descending (w := w)
  rw [ordered] at descending
  by_contra apart
  rcases List.mem_cons.mp hlast with same | hm
  · exact apart same
  · have split : movesOf remembers w applied = [] ++ last :: older := done
    exact h.not_before split hn List.not_mem_nil apart (List.rel_of_pairwise_cons descending hm)

/-- Of the events before the newest, `p` is the last one that wrote a phase. -/
structure Wrote (remembers : Bool) (later : List Event) (p : Event) (earlier : List Event) :
    Prop where
  pairs : (change remembers p).pairs = true
  none_later : ∀ e ∈ later, (change remembers e).pairs = false

theorem wrote_of_find {m : List Event} {p : Event}
    (found : (m.find? fun e => (change remembers e).pairs) = some p) :
    ∃ later earlier, m = later ++ p :: earlier ∧ Wrote remembers later p earlier := by
  obtain ⟨pairs, later, earlier, rfl, none_later⟩ := List.find?_eq_some_iff_append.mp found
  exact ⟨later, earlier, rfl, pairs, fun e he => by simpa using none_later e he⟩

/-- What is applied after the newest application of `p` comes after `p` in time. -/
theorem after_writer (h : CaughtUp remembers events applied) {n p e : Event}
    {later earlier newer older : List Event}
    (ordered : movesOf remembers w events.reverse = n :: (later ++ p :: earlier))
    (split : movesOf remembers w applied = newer ++ e :: older) (apart : p ∉ newer) (he : e ≠ p) :
    e = n ∨ e ∈ later := by
  have hp : p ∈ movesOf remembers w applied := by
    rw [← h.mem_reverse_iff, ordered]
    simp
  have he' : e ∈ n :: (later ++ p :: earlier) := by
    rw [← ordered, h.mem_reverse_iff, split]
    exact List.mem_append_right _ List.mem_cons_self
  have descending := h.descending (w := w)
  rw [ordered] at descending
  have earlier_lt : ∀ f ∈ earlier, f.eventTimestamp < p.eventTimestamp := fun f hf =>
    List.rel_of_pairwise_cons (List.pairwise_append.mp (List.Pairwise.of_cons descending)).2.1 hf
  rcases List.mem_cons.mp he' with same | he'
  · exact Or.inl same
  · rcases List.mem_append.mp he' with hlater | hrest
    · exact Or.inr hlater
    · rcases List.mem_cons.mp hrest with same | hearlier
      · exact absurd same he
      · exact absurd (earlier_lt e hearlier) (h.not_before split hp apart he)

theorem phase_of_between (h : CaughtUp remembers events applied) {n p x : Event}
    {later earlier newer between older : List Event}
    (ordered : movesOf remembers w events.reverse = n :: (later ++ p :: earlier))
    (wrote : Wrote remembers later p earlier) (asks : change remembers n = .unblock none)
    (split : movesOf remembers w applied = newer ++ x :: (between ++ n :: older))
    (hx : x ∈ later) (still : ∀ e ∈ x :: between, (change remembers e).pairs = false) :
    (change remembers p).phase = none ∨ (change remembers p).phase = some .inProgress := by
  have descending := h.descending (w := w)
  rw [ordered] at descending
  have members : ∀ e ∈ n :: (later ++ p :: earlier), e ∈ events ∧ subject e = some w ∧
      (change remembers e).moves = true := by
    rw [← ordered]
    intro e he
    simpa [mem_movesOf] using he
  have hn := members n List.mem_cons_self
  have hp := members p (by simp)
  have hx' := members x (List.mem_cons_of_mem _ (List.mem_append_left _ hx))
  have x_lt_n : x.eventTimestamp < n.eventTimestamp :=
    List.rel_of_pairwise_cons descending (List.mem_append_left _ hx)
  obtain ⟨-, after_p, p_lt⟩ := List.pairwise_append.mp (List.Pairwise.of_cons descending)
  have p_lt_x : p.eventTimestamp < x.eventTimestamp := p_lt x hx p List.mem_cons_self
  obtain ⟨before, after, rfl, -, hafter⟩ := exists_split split
  obtain ⟨first, rest, rfl, hfirst, -⟩ := exists_split hafter
  have apart : ∀ g ∈ first, g.eventId ≠ p.eventId := by
    intro g hg same
    have stored : g ∈ events := h.sub (by simp [hg])
    have : g = p := h.ids g stored p hp.1 same
    subst this
    have hg' : g ∈ between := hfirst ▸ mem_movesOf.mpr ⟨hg, hp.2⟩
    have := still g (List.mem_cons_of_mem _ hg')
    rw [wrote.pairs] at this
    cases this
  by_contra recorded
  rw [not_or] at recorded
  refine h.kept before x _ rfl ⟨p, hp.1, n, hn.1, hp.2.1.trans hx'.2.1.symm,
    hn.2.1.trans hx'.2.1.symm, hx'.2.2, still x List.mem_cons_self, recorded.1, recorded.2, asks,
    p_lt_x, x_lt_n, ?_, newer_append apart rest⟩
  · intro v stored hv pairs
    have hv' : v ∈ n :: (later ++ p :: earlier) := by
      rw [← ordered, mem_movesOf]
      exact ⟨List.mem_reverse.mpr stored, hv.trans hx'.2.1, pairs_moves pairs⟩
    rcases List.mem_cons.mp hv' with rfl | hv'
    · exact Or.inr le_rfl
    · rcases List.mem_append.mp hv' with hlater | hrest
      · rw [wrote.none_later v hlater] at pairs
        cases pairs
      · rcases List.mem_cons.mp hrest with rfl | hearlier
        · exact Or.inl le_rfl
        · exact Or.inl (List.rel_of_pairwise_cons after_p hearlier).le

theorem phase_agrees (h : CaughtUp remembers events applied) {n : Event} {m older : List Event}
    (ordered : movesOf remembers w events.reverse = n :: m)
    (done : movesOf remembers w applied = n :: older) (asks : change remembers n = .unblock none) :
    ((memory remembers (older.dropWhile (·.eventId = n.eventId))).bind openStatus).getD
        .inProgress = ((memory remembers m).bind openStatus).getD .inProgress := by
  have asks_pairs : (change remembers n).pairs = true := by rw [asks]; rfl
  have asks_phase : (change remembers n).phase = none := by rw [asks]; rfl
  have descending := h.descending (w := w)
  rw [ordered] at descending
  have hn : n ∈ movesOf remembers w applied := by rw [done]; exact List.mem_cons_self
  rw [memory_eq_find, memory_eq_find]
  have parts : older.takeWhile (·.eventId = n.eventId) ++ older.dropWhile (·.eventId = n.eventId) =
      older := List.takeWhile_append_dropWhile
  have head : ∀ x rest, older.dropWhile (·.eventId = n.eventId) = x :: rest → x ≠ n := by
    intro x rest hx same
    have := List.head?_dropWhile_not (fun e => decide (e.eventId = n.eventId)) older
    rw [hx, same] at this
    simp at this
  have again : ∀ g ∈ older.takeWhile (·.eventId = n.eventId), g = n := by
    intro g hg
    have stored : g ∈ movesOf remembers w applied := by
      rw [done, ← parts]
      exact List.mem_cons_of_mem _ (List.mem_append_left _ hg)
    exact h.eq_of_id stored hn (by simpa using List.mem_takeWhile_imp hg)
  generalize older.takeWhile (·.eventId = n.eventId) = repeated at parts again
  generalize older.dropWhile (·.eventId = n.eventId) = before at parts head
  subst parts
  cases found : m.find? fun e => (change remembers e).pairs with
  | none =>
    cases wrote : before.find? fun e => (change remembers e).pairs with
    | none => rfl
    | some q =>
      have hq : q ∈ n :: m := by
        rw [← ordered, h.mem_reverse_iff, done]
        exact List.mem_cons_of_mem _ (List.mem_append_right _ (List.mem_of_find?_eq_some wrote))
      rcases List.mem_cons.mp hq with rfl | hq
      · simp [asks_phase]
      · exact absurd (List.find?_some wrote) (List.find?_eq_none.mp found q hq)
  | some p =>
    obtain ⟨later, earlier, rfl, wrote⟩ := wrote_of_find found
    have p_ne : p ≠ n := by
      rintro rfl
      exact lt_irrefl _ (List.rel_of_pairwise_cons descending
        (List.mem_append_right _ List.mem_cons_self))
    have hp : p ∈ movesOf remembers w applied := by
      rw [← h.mem_reverse_iff, ordered]
      simp
    have p_before : p ∈ before := by
      rw [done] at hp
      rcases List.mem_cons.mp hp with same | hp
      · exact absurd same p_ne
      · exact (List.mem_append.mp hp).resolve_left fun hr => p_ne (again p hr)
    obtain ⟨q, hq⟩ := Option.isSome_iff_exists.mp
      (List.find?_isSome.mpr ⟨p, p_before, wrote.pairs⟩ :
        (before.find? fun e => (change remembers e).pairs).isSome = true)
    obtain ⟨newer, rest, rfl, asked⟩ := wrote_of_find hq
    rw [hq, Option.bind_some, Option.bind_some]
    by_cases same : q = p
    · rw [same]
    have p_unrepeated : p ∉ n :: repeated := fun hr =>
      p_ne ((List.mem_cons.mp hr).elim id (again p))
    have p_unheard : p ∉ newer := fun hp' => by
      simpa [wrote.pairs] using asked.none_later p hp'
    have p_notin : p ∉ (n :: repeated) ++ newer := fun hr =>
      (List.mem_append.mp hr).elim p_unrepeated p_unheard
    have q_eq : q = n := by
      have split : movesOf remembers w applied = ((n :: repeated) ++ newer) ++ q :: rest := by
        rw [done]
        simp
      refine (h.after_writer ordered split p_notin same).resolve_right fun hlater => ?_
      exact absurd asked.pairs (by simp [wrote.none_later q hlater])
    subst q_eq
    cases newer with
    | nil => exact absurd rfl (head q rest rfl)
    | cons x between =>
      have split : movesOf remembers w applied =
          (q :: repeated) ++ x :: (between ++ q :: rest) := by
        rw [done]
        simp
      have x_silent := asked.none_later x List.mem_cons_self
      have x_later : x ∈ later := by
        refine (h.after_writer ordered split p_unrepeated ?_).resolve_left ?_
        · rintro rfl
          simp [wrote.pairs] at x_silent
        · rintro rfl
          simp [asks_pairs] at x_silent
      rcases h.phase_of_between ordered wrote asks split x_later asked.none_later with none | some
      · simp [asks_phase, none]
      · rw [asks_phase, some]
        rfl

theorem statusAfter_agrees (h : CaughtUp remembers events applied) (w : String) :
    statusAfter remembers (movesOf remembers w applied) =
      statusAfter remembers (movesOf remembers w events.reverse) := by
  cases ordered : movesOf remembers w events.reverse with
  | nil =>
    have none_moved : movesOf remembers w applied = [] :=
      List.eq_nil_iff_forall_not_mem.mpr fun e he => by
        rw [← h.mem_reverse_iff, ordered] at he
        exact List.not_mem_nil he
    rw [none_moved]
  | cons n m =>
    have mem : ∀ e ∈ n :: m, e ∈ movesOf remembers w applied := fun e he => by
      rw [← h.mem_reverse_iff, ordered]
      exact he
    have hn := mem n List.mem_cons_self
    cases done : movesOf remembers w applied with
    | nil => simp [done] at hn
    | cons last older =>
      obtain rfl := h.head_eq ordered done
      have older_ids : ∀ f ∈ older, f.eventId = last.eventId → f = last := fun f hf =>
        h.eq_of_id (done ▸ List.mem_cons_of_mem _ hf) hn
      have m_ids : ∀ f ∈ m, f.eventId = last.eventId → f = last := fun f hf =>
        h.eq_of_id (mem f (List.mem_cons_of_mem _ hf)) hn
      cases fixed : (change remembers last).fixed with
      | some s => rw [statusAfter_of_fixed fixed older_ids, statusAfter_of_fixed fixed m_ids]
      | none =>
        have asks : change remembers last = .unblock none := by
          have moves := (mem_movesOf.mp hn).2.2
          cases hc : change remembers last with
          | unblock named => rw [hc] at fixed; exact congrArg _ fixed
          | create => rw [hc] at moves; cases moves
          | skeleton => rw [hc] at moves; cases moves
          | set s => rw [hc] at fixed; cases fixed
          | block phase => rw [hc] at fixed; cases fixed
        have no_repeat : m.dropWhile (·.eventId = last.eventId) = m := by
          cases m with
          | nil => rfl
          | cons e rest =>
            have descending := h.descending (w := w)
            rw [ordered] at descending
            refine List.dropWhile_cons_of_neg ?_
            intro same
            have : e = last := m_ids e List.mem_cons_self (of_decide_eq_true same)
            exact lt_irrefl _ (this ▸ List.rel_of_pairwise_cons descending List.mem_cons_self)
        rw [statusAfter_of_unblock asks older_ids, statusAfter_of_unblock asks m_ids, no_repeat]
        exact h.phase_agrees ordered done asks

theorem status_agrees (h : CaughtUp remembers events applied) (w : String) :
    (replay remembers w applied).map (·.status) =
      (replay remembers w events.reverse).map (·.status) := by
  have run : TracksLife remembers w applied (replay remembers w applied) :=
    replay_tracks fun e he f hf => h.ids e (h.sub he) f (h.sub hf)
  have rebuilt : TracksLife remembers w events.reverse (replay remembers w events.reverse) :=
    replay_tracks fun e he f hf => h.ids e (List.mem_reverse.mp he) f (List.mem_reverse.mp hf)
  cases incremental : replay remembers w applied with
  | none =>
    cases ordered : replay remembers w events.reverse with
    | none => rfl
    | some l =>
      rw [incremental] at run
      rw [ordered] at rebuilt
      obtain ⟨e, he, hw⟩ := rebuilt.1
      exact absurd hw (run e (h.all (List.mem_reverse.mp he)))
  | some l =>
    rw [incremental] at run
    cases ordered : replay remembers w events.reverse with
    | none =>
      rw [ordered] at rebuilt
      obtain ⟨e, he, hw⟩ := run.1
      exact absurd hw (rebuilt e (List.mem_reverse.mpr (h.sub he)))
    | some l' =>
      rw [ordered] at rebuilt
      rw [Option.map_some, Option.map_some, run.2.status, rebuilt.2.status, h.statusAfter_agrees w]

end CaughtUp

end Order

end DreamStudio.Projections
