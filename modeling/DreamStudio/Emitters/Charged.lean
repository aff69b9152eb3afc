import DreamStudio.Emitters.Tokens
import DreamStudio.Library.Except
import DreamStudio.Library.Firsts
import Mathlib.Algebra.Order.BigOperators.Group.List
import Mathlib.Algebra.Order.Group.Int
import Mathlib.Algebra.Order.Pi
import Mathlib.Data.List.ReduceOption
import Mathlib.Tactic.Abel

namespace DreamStudio.Emitters

open Library Spool

structure Response where
  id : String
  model : String
  counts : Counter → Nat
  isSidechain : Bool

def Response.usage (r : Response) : Usage := fun c => r.counts c

structure ResponseLine where
  response : Response
  uuid : String
  text : String

namespace ResponseLine

variable (l : ResponseLine)

def usage : Usage := l.response.usage

def usageBlock : Fields := Counter.all.map fun c => (c.key, .int (l.usage c))

def line : Line where
  text := l.text
  loaded := .value (.obj [
    ("type", .str "assistant"),
    ("uuid", .str l.uuid),
    ("isSidechain", .bool l.response.isSidechain),
    ("message", .obj [
      ("id", .str l.response.id),
      ("model", .str l.response.model),
      ("usage", .obj l.usageBlock)])])

theorem lookup_usageBlock (c : Counter) : Json.lookup l.usageBlock c.key = .int (l.usage c) := by
  cases c <;> rfl

end ResponseLine

/-- A tool call: its payload carries a usage block, or none. -/
structure ToolCall where
  payload : Fields
  carries : Option (Counter → Nat)
  block : (extractUsage payload).map (fun usage c => Json.lookup usage c.key) =
    carries.map fun counts c => .int (counts c)
  model_hashes : ∃ isReal, isRealModel (Json.lookup payload "model") = .ok isReal

def ToolCall.usage (call : ToolCall) : Usage := call.carries.elim 0 fun counts c => counts c

inductive Happening
  | line (l : ResponseLine)
  | other (l : Line)
  | tool (call : ToolCall) (stamp : Stamp) (reads : Bool)
  | stop (stamp : Stamp) (reads : Bool)

namespace Happening

def line? : Happening → Option ResponseLine
  | .line l => some l
  | _ => none

def call? : Happening → Option ToolCall
  | .tool call _ _ => some call
  | _ => none

end Happening

structure World where
  transcript : List Line := []
  events : List TokenEvent := []
  drawn : Nat := 0

def World.path (w : World) (reads : Bool) : Option (List Line) :=
  if reads then some w.transcript else none

def World.step (py : Interpreter) (w : World) : Happening → World
  | .line l => { w with transcript := w.transcript ++ [l.line] }
  | .other l => { w with transcript := w.transcript ++ [l] }
  | .tool call stamp reads =>
    let event := py.handlePostToolUse stamp w.drawn call.payload (w.path reads)
    { w with events := w.events ++ event.toList, drawn := w.drawn + 1 }
  | .stop stamp reads =>
    let emitted := py.normalizeStopTokenUsage stamp (w.path reads)
    { w with events := w.events ++ emitted.toOption.getD [] }

structure Tally where
  read : List ResponseLine := []
  unread : List ResponseLine := []
  calls : List ToolCall := []

namespace Tally

def step (t : Tally) : Happening → Tally
  | .line l => { t with unread := t.unread ++ [l] }
  | .other _ => t
  | .tool call _ _ => { t with calls := t.calls ++ [call] }
  | .stop _ reads => if reads then { t with read := t.read ++ t.unread, unread := [] } else t

def all (t : Tally) : List ResponseLine := t.read ++ t.unread

def carried (t : Tally) : Usage := (t.calls.map ToolCall.usage).sum

end Tally

def World.run (py : Interpreter) (hs : List Happening) : World := hs.foldl (World.step py) {}

def Tally.run (hs : List Happening) : Tally := hs.foldl Tally.step {}

/-- A session whose lines have uuids of their own; the other lines carry no usage. -/
structure Session (py : Interpreter) where
  happenings : List Happening
  uuids_distinct : ((happenings.filterMap Happening.line?).map ResponseLine.uuid).Nodup
  uuids_given : ∀ l ∈ happenings.filterMap Happening.line?, l.uuid ≠ ""
  usage_repeated : ∀ l ∈ happenings.filterMap Happening.line?,
    ∀ l' ∈ happenings.filterMap Happening.line?, l.response.id = l'.response.id → l.usage = l'.usage
  others_unused : ∀ l, .other l ∈ happenings → py.usageEntry l = .ok none

def eventKey (e : TokenEvent) : Option EventId := some e.eventId

theorem firsts_event (seen : List EventId) (e : TokenEvent) :
    firsts eventKey seen [e] = if e.eventId ∈ seen then [] else [e] := rfl

def responseKey (l : ResponseLine) : Option String := some l.response.id

def total (ls : List ResponseLine) : Usage := (ls.map ResponseLine.usage).sum

namespace Session

variable {py : Interpreter} (s : Session py)

def events : List TokenEvent := (World.run py s.happenings).events

def tally : Tally := Tally.run s.happenings

/-- The totals over the distinct events. -/
def charged : Usage := ((firsts eventKey [] s.events).map TokenEvent.usage).sum

/-- The totals over the distinct responses. -/
def produced : Usage := total (firsts responseKey [] (s.happenings.filterMap Happening.line?))

def again : List ResponseLine := repeats responseKey [] s.tally.read

def late : List ResponseLine :=
  firsts responseKey (s.tally.read.filterMap responseKey) s.tally.unread

end Session

def ResponseLine.event (stamp : Stamp) (l : ResponseLine) : TokenEvent where
  eventId := .turn l.uuid
  usage := l.usage
  model := .str l.response.model
  granularity := "assistant_turn"
  stamp := stamp
  isSidechain := some l.response.isSidechain
  agentId := none

def turns (stamp : Stamp) (ls : List ResponseLine) : List TokenEvent :=
  (ls.filter fun l => !Usage.zero l.usage).map (ResponseLine.event stamp)

theorem turns_append (stamp : Stamp) (ls ls' : List ResponseLine) :
    turns stamp (ls ++ ls') = turns stamp ls ++ turns stamp ls' := by
  simp [turns]

theorem mem_turns {stamp : Stamp} {ls : List ResponseLine} {e : TokenEvent} :
    e ∈ turns stamp ls ↔ ∃ l ∈ ls, l.usage ≠ 0 ∧ l.event stamp = e := by
  simp [turns, ← Usage.zero_iff, and_assoc]

theorem total_append (ls ls' : List ResponseLine) : total (ls ++ ls') = total ls + total ls' := by
  simp [total]

theorem total_turns (stamp : Stamp) (ls : List ResponseLine) :
    ((turns stamp ls).map TokenEvent.usage).sum = total ls := by
  induction ls with
  | nil => rfl
  | cons l ls ih =>
    rw [← List.singleton_append, turns_append, total_append, List.map_append, List.sum_append, ih]
    apply congrArg (· + total ls)
    cases zero : Usage.zero l.usage with
    | true =>
      have silent : turns stamp [l] = [] := by simp [turns, zero]
      simp [silent, total, (Usage.zero_iff _).mp zero]
    | false => simp [turns, total, zero, ResponseLine.event]

theorem turns_keys (stamp : Stamp) (ls : List ResponseLine) :
    (turns stamp ls).filterMap eventKey =
      ((ls.filter fun l => !Usage.zero l.usage).map ResponseLine.uuid).map EventId.turn := by
  simp [turns, eventKey, ResponseLine.event, List.filterMap_map, Function.comp_def]

section Emission

variable {py : Interpreter}

theorem int_or (n : Int) : py.int ((Json.int n).or (.int 0)) = .ok n := by
  by_cases zero : n = 0
  · subst zero
    rfl
  · simp [Json.or, Json.truthy, zero, Interpreter.int]

theorem count_of_lookup {usage : Fields} {c : Counter} {n : Int}
    (read : Json.lookup usage c.key = .int n) : py.count usage c = .ok n := by
  rw [Interpreter.count, read, int_or]

theorem lineEvent_line (stamp : Stamp) {l : ResponseLine} (given : l.uuid ≠ "") :
    py.lineEvent stamp l.line =
      .ok (if Usage.zero l.usage then none else some (l.event stamp)) := by
  have entry : py.usageEntry l.line = .ok (some {
      uid := l.uuid, usage := l.usageBlock, model := l.response.model
      isSidechain := l.response.isSidechain }) := by
    by_cases named : l.response.model = ""
    all_goals simp [Interpreter.usageEntry, ResponseLine.line, dictOr, Json.lookup,
      Json.or, Json.truthy,
      ResponseLine.usageBlock, Counter.all, Json.pyStr, given, named]
  have counts : Counter.gather (py.count l.usageBlock) = .ok l.usage := by
    rw [← Counter.gather_ok]
    exact congrArg _ (funext fun c => count_of_lookup (l.lookup_usageBlock c))
  rw [Interpreter.lineEvent, entry, ok_bind]
  dsimp only
  rw [Interpreter.turnEvent, counts, ok_bind]
  split <;> rfl

theorem normalize_append {stamp : Stamp} {lines lines' : List Line} {es es' : List TokenEvent}
    (first : py.normalizeStopTokenUsage stamp (some lines) = .ok es)
    (then_ : py.normalizeStopTokenUsage stamp (some lines') = .ok es') :
    py.normalizeStopTokenUsage stamp (some (lines ++ lines')) = .ok (es ++ es') := by
  simp only [Interpreter.normalizeStopTokenUsage, List.mapM_append] at *
  cases here : lines.mapM (py.lineEvent stamp) with
  | error e => rw [here] at first; cases first
  | ok found =>
    cases later : lines'.mapM (py.lineEvent stamp) with
    | error e => rw [later] at then_; cases then_
    | ok found' =>
      rw [here] at first
      rw [later] at then_
      cases first
      cases then_
      exact congrArg Except.ok (List.reduceOption_append found found')

theorem normalize_line (stamp : Stamp) {l : ResponseLine} (given : l.uuid ≠ "") :
    py.normalizeStopTokenUsage stamp (some [l.line]) = .ok (turns stamp [l]) := by
  simp only [Interpreter.normalizeStopTokenUsage, List.mapM_cons, List.mapM_nil,
    lineEvent_line stamp given]
  cases zero : Usage.zero l.usage with
  | true => simp [turns, zero]
  | false => simp [turns, zero]

theorem normalize_other (stamp : Stamp) {l : Line} (unused : py.usageEntry l = .ok none) :
    py.normalizeStopTokenUsage stamp (some [l]) = .ok [] := by
  simp only [Interpreter.normalizeStopTokenUsage, List.mapM_cons, List.mapM_nil,
    Interpreter.lineEvent, unused]
  rfl

end Emission

section Tool

variable {py : Interpreter} {counts : Counter → Nat} {usage : Fields}
  (block : ∀ c : Counter, Json.lookup usage c.key = .int (counts c))

include block

theorem hasNonzeroTokens_of_block (cs : List Counter) :
    py.hasNonzeroTokens usage cs = .ok (cs.any fun c => 0 < counts c) := by
  induction cs with
  | nil => rfl
  | cons c cs ih =>
    rw [Interpreter.hasNonzeroTokens, block, int_or, ok_bind, ih, List.any_cons]
    by_cases positive : 0 < counts c
    · simp [positive, pure, Except.pure]
    · simp [positive]

theorem hasNegativeTokens_of_block (cs : List Counter) :
    py.hasNegativeTokens usage cs = .ok false := by
  induction cs with
  | nil => rfl
  | cons c cs ih =>
    rw [Interpreter.hasNegativeTokens, block]
    dsimp only [Interpreter.int]
    rw [ok_bind, if_neg (by omega), ih]

theorem tokenPayload_of_block : py.tokenPayload usage = .ok fun c => counts c := by
  rw [Interpreter.tokenPayload, ← Counter.gather_ok]
  apply congrArg
  funext c
  rw [block, int_or]

end Tool

theorem handlePostToolUse_call (py : Interpreter) (stamp : Stamp) (n : Nat) (call : ToolCall)
    (transcript : Option (List Line)) :
    (call.usage = 0 ∧ py.handlePostToolUse stamp n call.payload transcript = none) ∨
      call.usage ≠ 0 ∧ ∃ e, e.eventId = .drawn n ∧ e.usage = call.usage ∧ e.stamp = stamp ∧
        py.handlePostToolUse stamp n call.payload transcript = some e := by
  obtain ⟨payload, carries, block, isReal, hashes⟩ := call
  cases found : extractUsage payload with
  | none =>
    cases carries with
    | some counts => rw [found] at block; cases block
    | none =>
      refine Or.inl ⟨rfl, ?_⟩
      rw [Interpreter.handlePostToolUse, Interpreter.postToolUse, found]
  | some usage =>
    cases carries with
    | none => rw [found] at block; cases block
    | some counts =>
      rw [found] at block
      have reads (c : Counter) := congrFun (Option.some.inj block) c
      cases positive : Counter.all.any fun c => 0 < counts c with
      | false =>
        refine Or.inl ⟨?_, ?_⟩
        · funext c
          have none := List.any_eq_false.mp positive c c.mem_all
          simpa [ToolCall.usage] using none
        · rw [Interpreter.handlePostToolUse, Interpreter.postToolUse, found]
          dsimp only
          rw [hasNonzeroTokens_of_block reads, positive]
          rfl
      | true =>
        obtain ⟨model, resolved⟩ : ∃ model, resolveModel payload transcript = .ok model := by
          rw [resolveModel, hashes, ok_bind]
          split <;> exact ⟨_, rfl⟩
        let e : TokenEvent := {
          eventId := .drawn n, usage := fun c => counts c, model := model
          granularity := "tool_invocation", stamp := stamp, isSidechain := none
          agentId := subagent py.repr payload }
        have emitted : py.handlePostToolUse stamp n payload transcript = some e := by
          rw [Interpreter.handlePostToolUse, Interpreter.postToolUse, found]
          dsimp only
          rw [hasNonzeroTokens_of_block reads, positive, ok_bind, hasNegativeTokens_of_block reads,
            tokenPayload_of_block reads, resolved]
          rfl
        have real : (fun c => (counts c : Int)) ≠ 0 := by
          intro none
          obtain ⟨c, -, some⟩ := List.any_eq_true.mp positive
          have zero : (counts c : Int) = 0 := congrFun none c
          simp [Int.natCast_eq_zero.mp zero] at some
        exact Or.inr ⟨real, e, rfl, rfl, rfl, emitted⟩

/-- What a world has emitted, by the tally of what happened in it. -/
structure Kept (py : Interpreter) (w : World) (t : Tally) : Prop where
  turns : ∀ stamp, py.normalizeStopTokenUsage stamp (some w.transcript) = .ok (turns stamp t.all)
  totals : ((firsts eventKey [] w.events).map TokenEvent.usage).sum = total t.read + t.carried
  emitted : ∀ l ∈ t.read, l.usage ≠ 0 → .turn l.uuid ∈ w.events.filterMap eventKey
  of_read : ∀ uid, .turn uid ∈ w.events.filterMap eventKey → ∃ l ∈ t.read, l.uuid = uid
  fresh : ∀ n, .drawn n ∈ w.events.filterMap eventKey → n < w.drawn

namespace Kept

variable {py : Interpreter} {w : World} {t : Tally}

theorem line (kept : Kept py w t) {l : ResponseLine} (given : l.uuid ≠ "") :
    Kept py (w.step py (.line l)) (t.step (.line l)) where
  turns stamp := by
    rw [Tally.all, Tally.step, ← List.append_assoc, turns_append]
    exact normalize_append (kept.turns stamp) (normalize_line stamp given)
  totals := kept.totals
  emitted := kept.emitted
  of_read := kept.of_read
  fresh := kept.fresh

theorem other (kept : Kept py w t) {l : Line} (unused : py.usageEntry l = .ok none) :
    Kept py (w.step py (.other l)) (t.step (.other l)) where
  turns stamp := by
    have read := normalize_append (kept.turns stamp) (normalize_other stamp unused)
    rwa [List.append_nil] at read
  totals := kept.totals
  emitted := kept.emitted
  of_read := kept.of_read
  fresh := kept.fresh

theorem firsts_tool (kept : Kept py w t) (call : ToolCall) (stamp : Stamp) (reads : Bool) :
    firsts eventKey [] (w.step py (.tool call stamp reads)).events = firsts eventKey [] w.events ++
      (py.handlePostToolUse stamp w.drawn call.payload (w.path reads)).toList := by
  rw [World.step, firsts_append]
  obtain ⟨-, silent⟩ | ⟨-, e, id, -, -, found⟩ :=
    handlePostToolUse_call py stamp w.drawn call (w.path reads)
  · rw [silent]
    rfl
  · rw [found, Option.toList_some, List.append_nil, firsts_event, id,
      if_neg fun member => Nat.lt_irrefl _ (kept.fresh _ member)]

theorem tool (kept : Kept py w t) (call : ToolCall) (stamp : Stamp) (reads : Bool) :
    Kept py (w.step py (.tool call stamp reads)) (t.step (.tool call stamp reads)) := by
  have carried : (t.step (.tool call stamp reads)).carried = t.carried + call.usage := by
    simp [Tally.carried, Tally.step]
  obtain ⟨none, silent⟩ | ⟨-, e, id, usage, -, found⟩ :=
    handlePostToolUse_call py stamp w.drawn call (w.path reads)
  · have events : (w.step py (.tool call stamp reads)).events = w.events := by
      simp [World.step, silent]
    exact {
      turns := kept.turns
      totals := by rw [events, carried, none, add_zero]; exact kept.totals
      emitted := by rw [events]; exact kept.emitted
      of_read := by rw [events]; exact kept.of_read
      fresh := by rw [events]; exact fun n member => (kept.fresh n member).trans (Nat.lt_succ_self _) }
  · have keys : (w.step py (.tool call stamp reads)).events.filterMap eventKey =
        w.events.filterMap eventKey ++ [.drawn w.drawn] := by
      simp [World.step, found, eventKey, id]
    exact {
      turns := kept.turns
      totals := by
        rw [kept.firsts_tool, found, carried, List.map_append, List.sum_append, kept.totals,
          Option.toList_some, List.map_singleton, List.sum_singleton, usage, add_assoc]
        rfl
      emitted := by
        rw [keys]
        exact fun l member real => List.mem_append_left _ (kept.emitted l member real)
      of_read := by
        rw [keys]
        intro uid member
        apply kept.of_read
        simpa using member
      fresh := by
        rw [keys]
        intro n member
        rcases List.mem_append.mp member with old | new
        · exact (kept.fresh n old).trans (Nat.lt_succ_self _)
        · rw [List.mem_singleton] at new
          cases new
          exact Nat.lt_succ_self _ }

theorem events_stop (kept : Kept py w t) (stamp : Stamp) :
    (w.step py (.stop stamp true)).events = w.events ++ Emitters.turns stamp t.all := by
  simp only [World.step, World.path, if_true, kept.turns stamp]
  rfl

theorem step_stop_false (py : Interpreter) (w : World) (stamp : Stamp) :
    w.step py (.stop stamp false) = w := by
  simp [World.step, World.path, Interpreter.normalizeStopTokenUsage, Except.toOption]

theorem firsts_stop (kept : Kept py w t) (distinct : (t.all.map ResponseLine.uuid).Nodup)
    (stamp : Stamp) :
    firsts eventKey [] (w.step py (.stop stamp true)).events =
      firsts eventKey [] w.events ++ Emitters.turns stamp t.unread := by
  obtain ⟨-, unread, apart⟩ := List.nodup_append.mp (List.map_append ▸ distinct)
  have old : firsts eventKey (w.events.filterMap eventKey ++ []) (Emitters.turns stamp t.read) =
      [] := by
    apply firsts_eq_nil
    intro e member
    obtain ⟨l, read, real, rfl⟩ := mem_turns.mp member
    exact ⟨_, List.mem_append_left _ (kept.emitted l read real), rfl⟩
  have new : firsts eventKey ((Emitters.turns stamp t.read).filterMap eventKey ++
      (w.events.filterMap eventKey ++ [])) (Emitters.turns stamp t.unread) =
      Emitters.turns stamp t.unread := by
    apply firsts_eq_self
    · rw [turns_keys]
      apply List.Nodup.map fun _ _ => EventId.turn.inj
      exact unread.sublist (List.filter_sublist.map _)
    · intro k member
      obtain ⟨e, member, keyed⟩ := List.mem_filterMap.mp member
      obtain ⟨l, later, -, rfl⟩ := mem_turns.mp member
      cases keyed
      have fresh (l' : ResponseLine) (read : l' ∈ t.read) : l'.uuid ≠ l.uuid :=
        apart _ (List.mem_map_of_mem read) _ (List.mem_map_of_mem later)
      rw [List.append_nil, List.mem_append, not_or]
      constructor
      · rw [turns_keys]
        intro again
        obtain ⟨uid, again, same⟩ := List.mem_map.mp again
        obtain ⟨l', read, rfl⟩ := List.mem_map.mp again
        exact fresh l' (List.mem_of_mem_filter read) (EventId.turn.inj same)
      · intro member
        obtain ⟨l', read, same⟩ := kept.of_read _ member
        exact fresh l' read same
  rw [kept.events_stop, Tally.all, turns_append, firsts_append, firsts_append, old, new,
    List.nil_append]

theorem stop (kept : Kept py w t) (distinct : (t.all.map ResponseLine.uuid).Nodup) (stamp : Stamp)
    (reads : Bool) : Kept py (w.step py (.stop stamp reads)) (t.step (.stop stamp reads)) := by
  cases reads with
  | false =>
    rw [step_stop_false]
    exact kept
  | true =>
    have step : t.step (.stop stamp true) = { t with read := t.all, unread := [] } := rfl
    exact {
      turns := fun stamp => by rw [step, Tally.all, List.append_nil]; exact kept.turns stamp
      totals := by
        rw [kept.firsts_stop distinct, List.map_append, List.sum_append, kept.totals,
          total_turns, step]
        change _ = total (t.read ++ t.unread) + t.carried
        rw [total_append]
        abel
      emitted := by
        rw [kept.events_stop, step, List.filterMap_append]
        intro l member real
        apply List.mem_append_right
        exact List.mem_filterMap.mpr ⟨_, mem_turns.mpr ⟨l, member, real, rfl⟩, rfl⟩
      of_read := by
        rw [kept.events_stop, step, List.filterMap_append]
        intro uid member
        rcases List.mem_append.mp member with old | new
        · obtain ⟨l, read, same⟩ := kept.of_read uid old
          exact ⟨l, List.mem_append_left _ read, same⟩
        · obtain ⟨e, here, keyed⟩ := List.mem_filterMap.mp new
          obtain ⟨l, read, -, rfl⟩ := mem_turns.mp here
          exact ⟨l, read, EventId.turn.inj (Option.some.inj keyed)⟩
      fresh := by
        rw [kept.events_stop, List.filterMap_append]
        intro n member
        rcases List.mem_append.mp member with old | new
        · exact kept.fresh n old
        · rw [turns_keys] at new
          simp at new }

end Kept

theorem Tally.all_step (t : Tally) (h : Happening) : (t.step h).all = t.all ++ h.line?.toList := by
  cases h with
  | line l => exact (List.append_assoc _ _ _).symm
  | other l => exact (List.append_nil _).symm
  | tool call stamp reads => exact (List.append_nil _).symm
  | stop stamp reads =>
    cases reads with
    | false => exact (List.append_nil _).symm
    | true => rfl

theorem Tally.all_run (hs : List Happening) :
    (Tally.run hs).all = hs.filterMap Happening.line? := by
  induction hs using List.reverseRecOn with
  | nil => rfl
  | append_singleton hs h ih =>
    rw [Tally.run, List.foldl_append, List.foldl_cons, List.foldl_nil, all_step,
      List.filterMap_append]
    apply congr
    · exact congrArg _ ih
    · cases h <;> rfl

theorem Tally.calls_run (hs : List Happening) :
    (Tally.run hs).calls = hs.filterMap Happening.call? := by
  induction hs using List.reverseRecOn with
  | nil => rfl
  | append_singleton hs h ih =>
    rw [Tally.run, List.foldl_append, List.foldl_cons, List.foldl_nil, List.filterMap_append, ← ih]
    cases h with
    | line l => exact (List.append_nil _).symm
    | other l => exact (List.append_nil _).symm
    | tool call stamp reads => rfl
    | stop stamp reads => cases reads <;> exact (List.append_nil _).symm

theorem kept_run {py : Interpreter} (hs : List Happening)
    (distinct : ((hs.filterMap Happening.line?).map ResponseLine.uuid).Nodup)
    (given : ∀ l ∈ hs.filterMap Happening.line?, l.uuid ≠ "")
    (unused : ∀ l, .other l ∈ hs → py.usageEntry l = .ok none) :
    Kept py (World.run py hs) (Tally.run hs) := by
  induction hs using List.reverseRecOn with
  | nil => exact ⟨fun _ => rfl, rfl, nofun, nofun, nofun⟩
  | append_singleton hs h ih =>
    rw [List.filterMap_append] at distinct given
    have earlier := List.sublist_append_left (hs.filterMap Happening.line?)
      ([h].filterMap Happening.line?)
    have kept := ih (distinct.sublist (earlier.map _))
      (fun l member => given l (earlier.subset member))
      fun l member => unused l (List.mem_append_left _ member)
    rw [World.run, Tally.run, List.foldl_append, List.foldl_append]
    cases h with
    | line l => exact kept.line (given l (List.mem_append_right _ (List.mem_singleton_self l)))
    | other l => exact kept.other (unused l (List.mem_append_right _ (List.mem_singleton_self _)))
    | tool call stamp reads => exact kept.tool call stamp reads
    | stop stamp reads =>
      refine kept.stop ?_ stamp reads
      rw [Tally.all_run]
      exact distinct.sublist (earlier.map _)

namespace Session

variable {py : Interpreter} (s : Session py)

theorem charged_add_late :
    s.charged + total s.late = s.produced + (total s.again + s.tally.carried) := by
  have kept := kept_run s.happenings s.uuids_distinct s.uuids_given s.others_unused
  have lines : s.happenings.filterMap Happening.line? = s.tally.read ++ s.tally.unread :=
    (Tally.all_run s.happenings).symm
  have read : total s.tally.read = total (firsts responseKey [] s.tally.read) + total s.again := by
    rw [← total_append]
    exact ((firsts_append_repeats responseKey [] s.tally.read).map ResponseLine.usage).sum_eq.symm
  have charged : s.charged = total s.tally.read + s.tally.carried := kept.totals
  rw [produced, lines, firsts_append, total_append, List.append_nil, charged, read, late]
  abel

/-- When each response is charged once: with every line read by a Stop, if no response with usage
stands on two lines and no tool call carries usage; else if what is counted again makes up for what
is missed. -/
def Single : Prop :=
  if s.tally.unread = [] then
    (∀ l ∈ s.again, l.usage = 0) ∧ ∀ call ∈ s.happenings.filterMap Happening.call?, call.usage = 0
  else total s.again + s.tally.carried = total s.late

end Session

theorem sum_eq_zero_iff {us : List Usage} (nonneg : ∀ u ∈ us, 0 ≤ u) :
    us.sum = 0 ↔ ∀ u ∈ us, u = 0 :=
  ⟨fun none _ member => List.all_zero_of_le_zero_le_of_sum_eq_zero nonneg none member,
    List.sum_eq_zero⟩

theorem ResponseLine.usage_nonneg (l : ResponseLine) : 0 ≤ l.usage := fun _ => Int.natCast_nonneg _

theorem ToolCall.usage_nonneg (call : ToolCall) : 0 ≤ call.usage := by
  rw [ToolCall.usage]
  cases call.carries with
  | none => exact le_rfl
  | some counts => exact fun _ => Int.natCast_nonneg _

theorem total_eq_zero_iff (ls : List ResponseLine) : total ls = 0 ↔ ∀ l ∈ ls, l.usage = 0 := by
  rw [total, sum_eq_zero_iff, List.forall_mem_map]
  rw [List.forall_mem_map]
  exact fun l _ => l.usage_nonneg

theorem carried_eq_zero_iff (t : Tally) : t.carried = 0 ↔ ∀ call ∈ t.calls, call.usage = 0 := by
  rw [Tally.carried, sum_eq_zero_iff, List.forall_mem_map]
  rw [List.forall_mem_map]
  exact fun call _ => call.usage_nonneg

theorem Session.charged_eq_produced_iff {py : Interpreter} (s : Session py) :
    s.charged = s.produced ↔ s.Single := by
  have balance := s.charged_add_late
  have balanced : s.charged = s.produced ↔ total s.again + s.tally.carried = total s.late := by
    constructor
    · intro same
      rw [same] at balance
      exact (add_left_cancel balance).symm
    · intro same
      rw [same] at balance
      exact add_right_cancel balance
  rw [balanced, Session.Single]
  split
  · next read =>
    have none : total s.late = 0 := by
      rw [Session.late, read]
      rfl
    have again : 0 ≤ total s.again := by
      apply List.sum_nonneg
      rw [List.forall_mem_map]
      exact fun l _ => l.usage_nonneg
    have carried : 0 ≤ s.tally.carried := by
      apply List.sum_nonneg
      rw [List.forall_mem_map]
      exact fun call _ => call.usage_nonneg
    rw [none, add_eq_zero_iff_of_nonneg again carried, total_eq_zero_iff, carried_eq_zero_iff,
      Session.tally, Tally.calls_run]
  · exact Iff.rfl

def plain : Interpreter := ⟨fun _ => none, fun _ => .error .valueError, fun _ => ""⟩

def twoLines : Session plain where
  happenings :=
    let answer : Response := ⟨"msg_1", "opus", fun c => if c = .output then 5 else 0, false⟩
    [.line ⟨answer, "u1", "text"⟩, .line ⟨answer, "u2", "tool_use"⟩,
      .stop ⟨none, none, none, "orphan"⟩ true]
  uuids_distinct := by decide
  uuids_given := by simp [Happening.line?]
  usage_repeated := by simp [Happening.line?, ResponseLine.usage]
  others_unused := by simp

theorem line_charged_again : ¬ ∀ (py : Interpreter) (s : Session py), s.charged = s.produced := by
  intro once
  have same := congrFun (once plain twoLines) .output
  have charged : twoLines.charged .output = 10 := by decide +kernel
  have produced : twoLines.produced .output = 5 := by decide +kernel
  rw [charged, produced] at same
  contradiction

end DreamStudio.Emitters
