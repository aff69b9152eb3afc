import DreamStudio.Library.JsonText
import DreamStudio.Library.Strip
import DreamStudio.Library.Utf8

namespace DreamStudio.Hooks

open Library JsonText

/-- One run of an enqueuer: the arguments behind the program's name, the standard input where it can
be read, and the time, as either language prints it. -/
structure Enqueued where
  args : List (List Char)
  stdin : Option (List UInt8)
  ts : Decimal

/-- `_MAX_PAYLOAD`. -/
def maxPayload : Nat := 64 * 1024

namespace DsEnqueue

def escapeChar (c : Char) : List Char :=
  match escapes.lookup c with
  | some n => ['\\', n]
  | none => if c.toNat < 0x20 then '\\' :: 'u' :: hex4 c.toNat else [c]

def escapeJson (input : List Char) : List Char := input.flatMap escapeChar

/-- `run`, up to the write: `none` where the standard input cannot be read. -/
def run (call : Enqueued) : Option (List Char) := do
  let event := (call.args[0]?).getD []
  let buf ← call.stdin
  let payload := Utf8.decode (buf.take maxPayload)
  return "\x7b\"event\":\"".toList ++ escapeJson event ++ "\",\"ts\":".toList ++ call.ts.text ++
    ",\"payload\":\"".toList ++ escapeJson payload ++ "\"\x7d\n".toList

end DsEnqueue

namespace EnqueuePy

def event (call : Enqueued) : List Char :=
  match call.args with
  | arg :: _ => arg
  | [] => []

def payload (call : Enqueued) : List Char :=
  match call.stdin with
  | some raw => Utf8.decode (raw.take maxPayload)
  | none => []

/-- `main`, up to the write. -/
def main (call : Enqueued) : List Char :=
  printObject escapeAscii
    [("event".toList, quoted escapeAscii (event call)), ("ts".toList, call.ts.text),
      ("payload".toList, quoted escapeAscii (payload call))] ++ ['\n']

end EnqueuePy

/-- One of the two programs, and the call of it. -/
inductive Enqueuer
  | native (call : Enqueued)
  | python (call : Enqueued)

namespace Enqueuer

def call : Enqueuer → Enqueued
  | native call => call
  | python call => call

def line : Enqueuer → Option (List Char)
  | native call => DsEnqueue.run call
  | python call => some (EnqueuePy.main call)

end Enqueuer

/-- The queue, one line appended after the other. -/
def queueFile (writes : List Enqueuer) : List UInt8 :=
  (writes.filterMap (·.line)).flatMap Utf8.encode

/-- Universal newlines. -/
def newlines : List Char → List Char
  | [] => []
  | [c] => [if c = '\r' then '\n' else c]
  | c :: d :: cs =>
    if c = '\r' then
      if d = '\n' then '\n' :: newlines cs else '\n' :: newlines (d :: cs)
    else c :: newlines (d :: cs)

def readRecord (line : List Char) : Option Value :=
  let line := trimmed line
  if line = [] then none else loads line

/-- `_read_records`. -/
def readRecords (file : List UInt8) : List Value :=
  ((newlines (Utf8.decode file)).splitOn '\n').filterMap readRecord

/-- `record.get(key, "")`. -/
def recordGet (fields : List (List Nat × Value)) (key : String) : Value :=
  ((fields.reverse.find? fun field => field.1 = key.toList.map Char.toNat).map (·.2)).getD (.str [])

/-- What `drain` hands to its handler: `none` where the record has no `get`. -/
def handed : Value → Option (Value × Value)
  | .obj fields => some (recordGet fields "event", recordGet fields "payload")
  | _ => none

/-- A quote that no backslash stands before. -/
def bareQuote : Bool → List Char → Bool
  | _, [] => false
  | true, _ :: cs => bareQuote false cs
  | false, c :: cs => if c = '\\' then bareQuote true cs else c = '"' || bareQuote false cs

section Characters

theorem DsEnqueue.encodes : Encodes DsEnqueue.escapeChar where
  reads c := by
    refine ⟨[c.toNat], Or.inl rfl, fun rest => ?_⟩
    rw [DsEnqueue.escapeChar]
    cases named : escapes.lookup c with
    | some n => exact units_named named rest
    | none =>
      dsimp only
      split
      next control => exact units_hex (by omega) rest
      next printed => exact units_plain (not_quote_of_escapes named) printed rest

/-- A text without control characters. -/
def Printed (cs : List Char) : Prop := ∀ c ∈ cs, 0x20 ≤ c.toNat

theorem Printed.append {cs ds : List Char} (left : Printed cs) (right : Printed ds) :
    Printed (cs ++ ds) :=
  List.forall_mem_append.mpr ⟨left, right⟩

theorem printed_hex (n : Nat) : Printed ('\\' :: 'u' :: hex4 n) := by
  apply @Printed.append ['\\', 'u']
  · exact List.forall_mem_cons.mpr ⟨by decide, List.forall_mem_singleton.mpr (by decide)⟩
  · exact fun c member => (plain_of_hex4 c member).2.2

theorem printed_named {c n : Char} (named : escapes.lookup c = some n) : Printed ['\\', n] := by
  intro d member
  cases member with
  | head => decide
  | tail _ member =>
    rw [List.mem_singleton.mp member]
    exact (unescape_of_escapes named).2.2

theorem DsEnqueue.printed (c : Char) : Printed (DsEnqueue.escapeChar c) := by
  rw [DsEnqueue.escapeChar]
  cases named : escapes.lookup c with
  | some n => exact printed_named named
  | none =>
    dsimp only
    split
    next => exact printed_hex _
    next printed => exact List.forall_mem_singleton.mpr (Nat.le_of_not_lt printed)

theorem EnqueuePy.printed (c : Char) : Printed (escapeAscii c) := by
  rw [escapeAscii]
  cases named : escapes.lookup c with
  | some n => exact printed_named named
  | none =>
    dsimp only
    split
    next ascii => exact List.forall_mem_singleton.mpr (UInt32.le_iff_toNat_le.mp ascii.1)
    split
    next => exact printed_hex _
    next => exact (printed_hex _).append (printed_hex _)

theorem bareQuote_plain {c : Char} (plain : c ≠ '"' ∧ c ≠ '\\') (rest : List Char) :
    bareQuote false (c :: rest) = bareQuote false rest := by
  rw [bareQuote, if_neg plain.2, decide_eq_false plain.1, Bool.false_or]

theorem bareQuote_append {cs : List Char} (plain : ∀ c ∈ cs, c ≠ '"' ∧ c ≠ '\\')
    (rest : List Char) :
    bareQuote false (cs ++ rest) = bareQuote false rest := by
  induction cs with
  | nil => rfl
  | cons c cs ih =>
    obtain ⟨here, later⟩ := List.forall_mem_cons.mp plain
    rw [List.cons_append, bareQuote_plain here, ih later]

theorem DsEnqueue.bareQuote_escapeChar (c : Char) (rest : List Char) :
    bareQuote false (DsEnqueue.escapeChar c ++ rest) = bareQuote false rest := by
  rw [DsEnqueue.escapeChar]
  cases named : escapes.lookup c with
  | some n => rfl
  | none =>
    dsimp only
    split
    next =>
      exact bareQuote_append
        (fun d member => ⟨(plain_of_hex4 d member).1, (plain_of_hex4 d member).2.1⟩) rest
    next => exact bareQuote_plain (not_quote_of_escapes named) rest

theorem DsEnqueue.bareQuote_escapeJson (s : List Char) :
    bareQuote false (DsEnqueue.escapeJson s) = false := by
  rw [DsEnqueue.escapeJson]
  induction s with
  | nil => rfl
  | cons c s ih => rw [List.flatMap_cons, DsEnqueue.bareQuote_escapeChar, ih]

end Characters

section Lines

variable {escape : Char → List Char}

/-- The record as `json.dumps` writes it with one way to escape. -/
def recordText (escape : Char → List Char) (event ts payload : List Char) : List Char :=
  printObject escape
    [("event".toList, quoted escape event), ("ts".toList, ts),
      ("payload".toList, quoted escape payload)]

def record (event ts payload : List Char) : Value :=
  .obj [("event".toList.map Char.toNat, .str (event.map Char.toNat)),
    ("ts".toList.map Char.toNat, .number ts),
    ("payload".toList.map Char.toNat, .str (payload.map Char.toNat))]

theorem loads_recordText (encodes : Encodes escape) (event payload : List Char) (ts : Decimal) :
    loads (recordText escape event ts.text payload) = some (record event ts.text payload) := by
  apply loads_print encodes _ (List.cons_ne_nil _ _)
  apply List.Forall₂.cons ⟨rfl, scalar_quoted encodes event⟩
  apply List.Forall₂.cons ⟨rfl, scalar_decimal ts⟩
  exact List.Forall₂.cons ⟨rfl, scalar_quoted encodes payload⟩ List.Forall₂.nil

theorem handed_record (event ts payload : List Char) :
    handed (record event ts payload) =
      some (.str (event.map Char.toNat), .str (payload.map Char.toNat)) := by
  simp only [handed, record, recordGet]
  rfl

theorem recordText_braces (event ts payload : List Char) :
    ∃ cs, recordText escape event ts payload = '{' :: (cs ++ ['}']) := by
  refine ⟨quoted escape "event".toList ++
    ':' :: (quoted escape event ++ ',' :: (quoted escape "ts".toList ++
    ':' :: (ts ++ ',' :: (quoted escape "payload".toList ++ ':' :: quoted escape payload)))), ?_⟩
  simp only [recordText, printObject, printFields, List.append_assoc, List.cons_append]

theorem printed_quoted (printed : ∀ c, Printed (escape c)) (s : List Char) :
    Printed (quoted escape s) := by
  intro c member
  cases member with
  | head => decide
  | tail _ member =>
    cases List.mem_append.mp member with
    | inl inside =>
      obtain ⟨d, -, written⟩ := List.mem_flatMap.mp inside
      exact printed d c written
    | inr quote =>
      rw [List.mem_singleton.mp quote]
      decide

theorem printed_decimal (x : Decimal) : Printed x.text := by
  have digits : ∀ c ∈ x.whole ++ x.frac, 0x20 ≤ c.toNat := by
    intro c member
    have least := x.digits c member
    rw [digit, Bool.and_eq_true, decide_eq_true_iff, decide_eq_true_iff] at least
    exact (by decide : 0x20 ≤ '0'.toNat).trans (UInt32.le_iff_toNat_le.mp least.1)
  obtain ⟨whole, frac⟩ := List.forall_mem_append.mp digits
  apply Printed.append whole
  split
  · exact List.forall_mem_nil _
  · exact List.forall_mem_cons.mpr ⟨by decide, frac⟩

theorem printed_recordText (printed : ∀ c, Printed (escape c)) (event payload : List Char)
    (ts : Decimal) :
    Printed (recordText escape event ts.text payload) := by
  have quote := printed_quoted printed
  simp only [recordText, printObject, printFields]
  simp only [Printed, List.forall_mem_cons, List.forall_mem_append]
  exact ⟨by decide, quote _, by decide, quote _, by decide, quote _, by
    decide, printed_decimal ts, by decide, quote _,
    by decide, quote _, by decide, List.forall_mem_nil _⟩

theorem readRecord_recordText (encodes : Encodes escape) (event payload : List Char)
    (ts : Decimal) :
    readRecord (recordText escape event ts.text payload) = some (record event ts.text payload) := by
  obtain ⟨cs, braces⟩ := @recordText_braces escape event ts.text payload
  have stripped : trimmed (recordText escape event ts.text payload) =
      recordText escape event ts.text payload := by
    rw [braces]
    exact trimmed_between rfl rfl cs
  rw [readRecord, stripped]
  exact (if_neg (braces ▸ List.cons_ne_nil _ _)).trans (loads_recordText encodes event payload ts)

theorem DsEnqueue.run_eq (call : Enqueued) :
    DsEnqueue.run call = call.stdin.map fun _ =>
      recordText DsEnqueue.escapeChar (EnqueuePy.event call) call.ts.text
        (EnqueuePy.payload call) ++ ['\n'] := by
  have event : (call.args[0]?).getD [] = EnqueuePy.event call := by
    rw [EnqueuePy.event]
    cases call.args <;> rfl
  have keys : ∀ s ∈ ["event", "ts", "payload"], s.toList.flatMap DsEnqueue.escapeChar =
      s.toList := by decide
  simp only [List.forall_mem_cons] at keys
  obtain ⟨eventKey, tsKey, payloadKey, -⟩ := keys
  rw [DsEnqueue.run]
  cases stdin : call.stdin with
  | none => rfl
  | some buf =>
    rw [event, EnqueuePy.payload, stdin]
    simp only [recordText, printObject, printFields, quoted, eventKey, tsKey, payloadKey,
      List.append_assoc,
      List.cons_append, DsEnqueue.escapeJson]
    rfl

theorem Enqueuer.line_sound {writer : Enqueuer} {text : List Char}
    (written : writer.line = some text) :
    ∃ body, text = body ++ ['\n'] ∧ Printed body ∧ readRecord body =
      some (record (EnqueuePy.event writer.call) writer.call.ts.text
        (EnqueuePy.payload writer.call)) := by
  cases writer with
  | native call =>
    rw [Enqueuer.line, DsEnqueue.run_eq] at written
    obtain ⟨buf, -, rfl⟩ := Option.map_eq_some_iff.mp written
    exact ⟨_, rfl, printed_recordText DsEnqueue.printed _ _ _,
      readRecord_recordText DsEnqueue.encodes _ _ _⟩
  | python call =>
    cases written
    exact ⟨_, rfl, printed_recordText EnqueuePy.printed _ _ _,
      readRecord_recordText encodes_escapeAscii _ _ _⟩

end Lines

section Queue

theorem newlines_append {body : List Char} (printed : Printed body) (rest : List Char) :
    newlines (body ++ '\n' :: rest) = body ++ '\n' :: newlines rest := by
  have keeps {c : Char} (stays : c ≠ '\r') (cs : List Char) :
      newlines (c :: cs) = c :: newlines cs := by
    cases cs with
    | nil => exact congrArg (fun x => [x]) (if_neg stays)
    | cons d cs => rw [newlines, if_neg stays]
  induction body with
  | nil => exact keeps (by decide) rest
  | cons c body ih =>
    obtain ⟨here, later⟩ := List.forall_mem_cons.mp printed
    have stays : c ≠ '\r' := by
      rintro rfl
      revert here
      decide
    rw [List.cons_append, keeps stays, ih later]
    rfl

theorem splitOn_append {body : List Char} (printed : Printed body) (rest : List Char) :
    (body ++ '\n' :: rest).splitOn '\n' = body :: rest.splitOn '\n' := by
  apply List.splitOnP_append_cons_of_forall_mem
  · intro c member
    apply beq_false_of_ne
    rintro rfl
    exact absurd (printed '\n' member) (by decide)
  · rfl

theorem readRecords_lines {writes : List Enqueuer} {lines : List (List Char)}
    (written : writes.map (·.line) = lines.map some) :
    ((newlines lines.flatten).splitOn '\n').filterMap readRecord = writes.map fun w =>
      record (EnqueuePy.event w.call) w.call.ts.text (EnqueuePy.payload w.call) := by
  induction writes generalizing lines with
  | nil =>
    rw [List.map_nil, eq_comm, List.map_eq_nil_iff] at written
    rw [written]
    rfl
  | cons writer writes ih =>
    cases lines with
    | nil => cases written
    | cons line lines =>
      obtain ⟨here, later⟩ := List.cons.inj written
      obtain ⟨body, rfl, printed, reads⟩ := Enqueuer.line_sound here
      rw [List.flatten_cons, List.append_assoc, List.singleton_append, newlines_append printed,
        splitOn_append printed, List.filterMap_cons_some reads, ih later]
      rfl

theorem decode_queueFile (writes : List Enqueuer) :
    Utf8.decode (queueFile writes) = (writes.filterMap (·.line)).flatten := by
  have whole : queueFile writes = Utf8.encode (writes.filterMap (·.line)).flatten := by
    rw [queueFile, Utf8.encode, List.flatten_eq_flatMap, List.flatMap_assoc]
    rfl
  rw [whole, Utf8.decode_encode]

/-- The escapes hide what would break a line or end the text, and are read back; a line is one line;
and the queue gives back what either program was given, line by line. -/
theorem escapeJson_faithful :
    (∀ s, Printed (DsEnqueue.escapeJson s) ∧ bareQuote false (DsEnqueue.escapeJson s) = false ∧
      loads ('"' :: (DsEnqueue.escapeJson s ++ ['"'])) = some (.str (s.map Char.toNat))) ∧
    (∀ call, ∃ body, Printed body ∧ DsEnqueue.run call = call.stdin.map fun _ => body ++ ['\n']) ∧
    ∀ writes : List Enqueuer, (readRecords (queueFile writes)).map handed =
      (writes.filter (·.line.isSome)).map fun w =>
        some (.str ((EnqueuePy.event w.call).map Char.toNat),
          .str ((EnqueuePy.payload w.call).map Char.toNat)) := by
  refine ⟨fun s => ⟨?_, DsEnqueue.bareQuote_escapeJson s, loads_quoted DsEnqueue.encodes s⟩,
    fun call => ?_, fun writes => ?_⟩
  · intro c member
    obtain ⟨d, -, written⟩ := List.mem_flatMap.mp member
    exact DsEnqueue.printed d c written
  · exact ⟨_, printed_recordText DsEnqueue.printed _ _ _, DsEnqueue.run_eq call⟩
  · have written : (writes.filter (·.line.isSome)).map (·.line) =
        (writes.filterMap (·.line)).map some := by
      induction writes with
      | nil => rfl
      | cons writer writes ih =>
        cases line : writer.line with
        | none => rw [List.filter_cons_of_neg (by simp [line]), List.filterMap_cons_none line, ih]
        | some text =>
          rw [List.filter_cons_of_pos (by simp [line]), List.filterMap_cons_some line,
            List.map_cons, List.map_cons, ih,
            line]
    rw [readRecords, decode_queueFile, readRecords_lines written, List.map_map]
    exact List.map_congr_left fun w _ => handed_record _ _ _

example : DsEnqueue.escapeJson ['"', '\x01', '\x7f'] = "\\\"\\u0001\x7f".toList := by decide

end Queue

end DreamStudio.Hooks
