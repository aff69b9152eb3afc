import Mathlib.Data.List.Basic
import Mathlib.Tactic.IntervalCases

namespace DreamStudio.Library.JsonText

/-- What `json.loads` builds: a text is the list of its code points, a number what stands for it. -/
inductive Value
  | null
  | bool (b : Bool)
  | number (text : List Char)
  | str (codes : List Nat)
  | arr (items : List Value)
  | obj (fields : List (List Nat × Value))

section Strings

/-- Where the scanner of a string stands: behind a backslash, or in the digits behind `\u`. -/
inductive Mode
  | plain
  | escaped
  | hex (digits value : Nat)

def hexDigit (c : Char) : Option Nat :=
  if '0' ≤ c ∧ c ≤ '9' then some (c.toNat - '0'.toNat)
  else if 'a' ≤ c ∧ c ≤ 'f' then some (c.toNat - 'a'.toNat + 10)
  else if 'A' ≤ c ∧ c ≤ 'F' then some (c.toNat - 'A'.toNat + 10)
  else none

/-- `BACKSLASH`. -/
def unescape (c : Char) : Option Nat :=
  if c = '"' then some 0x22
  else if c = '\\' then some 0x5c
  else if c = '/' then some 0x2f
  else if c = 'b' then some 0x08
  else if c = 'f' then some 0x0c
  else if c = 'n' then some 0x0a
  else if c = 'r' then some 0x0d
  else if c = 't' then some 0x09
  else none

/-- `ESCAPE_DCT`: the characters that have a letter of their own behind the backslash. -/
def escapes : List (Char × Char) :=
  [('"', '"'), ('\\', '\\'), ('\n', 'n'), ('\r', 'r'), ('\t', 't'), ('\x08', 'b'), ('\x0c', 'f')]

def push {β : Type} (unit : Nat) (scanned : Option (List Nat × β)) : Option (List Nat × β) :=
  scanned.map fun (units, rest) => (unit :: units, rest)

def units : Mode → List Char → Option (List Nat × List Char)
  | _, [] => none
  | .plain, c :: cs =>
    if c = '"' then some ([], cs)
    else if c = '\\' then units .escaped cs
    else if c.toNat < 0x20 then none
    else push c.toNat (units .plain cs)
  | .escaped, c :: cs =>
    if c = 'u' then units (.hex 0 0) cs
    else
      match unescape c with
      | none => none
      | some code => push code (units .plain cs)
  | .hex digits value, c :: cs =>
    match hexDigit c with
    | none => none
    | some d =>
      if digits = 3 then push (16 * value + d) (units .plain cs)
      else units (.hex (digits + 1) (16 * value + d)) cs

def highSurrogate (u : Nat) : Bool := 0xd800 ≤ u && u ≤ 0xdbff

def lowSurrogate (u : Nat) : Bool := 0xdc00 ≤ u && u ≤ 0xdfff

def joinSurrogates : List Nat → List Nat
  | [] => []
  | [u] => [u]
  | u :: v :: us =>
    if highSurrogate u && lowSurrogate v then
      (0x10000 + (u - 0xd800) * 0x400 + (v - 0xdc00)) :: joinSurrogates us
    else u :: joinSurrogates (v :: us)

/-- `scanstring`. -/
def scanString (cs : List Char) : Option (List Nat × List Char) :=
  (units .plain cs).map fun (us, rest) => (joinSurrogates us, rest)

end Strings

section Numbers

def digit (c : Char) : Bool := '0' ≤ c && c ≤ '9'

def optionalDigits (lead : List Char) (cs : List Char) : List Char × List Char :=
  match cs.takeWhile digit with
  | [] => ([], lead ++ cs)
  | ds => (lead ++ ds, cs.dropWhile digit)

def fraction : List Char → List Char × List Char
  | c :: cs => if c = '.' then optionalDigits ['.'] cs else ([], c :: cs)
  | [] => ([], [])

def exponent : List Char → List Char × List Char
  | c :: cs =>
    if c = 'e' ∨ c = 'E' then
      match cs with
      | s :: ds => if s = '+' ∨ s = '-' then optionalDigits [c, s] ds else
        optionalDigits [c] (s :: ds)
      | [] => ([], [c])
    else ([], c :: cs)
  | [] => ([], [])

def integer : List Char → Option (List Char × List Char)
  | c :: cs =>
    if c = '0' then some (['0'], cs)
    else if digit c then some (c :: cs.takeWhile digit, cs.dropWhile digit)
    else none
  | [] => none

/-- `NUMBER_RE`. -/
def scanNumber (cs : List Char) : Option (List Char × List Char) :=
  let (sign, cs) := match cs with
    | c :: rest => if c = '-' then (['-'], rest) else ([], c :: rest)
    | [] => ([], [])
  (integer cs).map fun (whole, cs) =>
    let (frac, cs) := fraction cs
    let (expo, cs) := exponent cs
    (sign ++ whole ++ frac ++ expo, cs)

end Numbers

section Values

def space (c : Char) : Bool := c = ' ' || c = '\t' || c = '\n' || c = '\r'

def skip (cs : List Char) : List Char := cs.dropWhile space

def expect (c : Char) : List Char → Option (List Char)
  | [] => none
  | x :: xs => if x = c then some xs else none

def keyword (text : String) (v : Value) (cs : List Char) : Option (Value × List Char) :=
  if text.toList.isPrefixOf cs then some (v, cs.drop text.toList.length) else none

/-- `NaN`, `Infinity` and `-Infinity` are numbers too, and the constants come before them. -/
def scanConstant (cs : List Char) : Option (Value × List Char) :=
  (keyword "null" .null cs).or <| (keyword "true" (.bool true) cs).or <|
    (keyword "false" (.bool false) cs).or <|
    (keyword "NaN" (.number "NaN".toList) cs).or <|
      (keyword "Infinity" (.number "Infinity".toList) cs).or <|
      keyword "-Infinity" (.number "-Infinity".toList) cs

mutual

/-- `scan_once`, to so many levels. -/
def scanOnce : Nat → List Char → Option (Value × List Char)
  | 0, _ => none
  | fuel + 1, cs =>
    match cs with
    | [] => none
    | c :: rest =>
      if c = '"' then (scanString rest).map fun (codes, rest) => (.str codes, rest)
      else if c = '{' then
        match expect '}' (skip rest) with
        | some rest => some (.obj [], rest)
        | none => (scanFields fuel (skip rest)).map fun (fields, rest) => (.obj fields, rest)
      else if c = '[' then
        match expect ']' (skip rest) with
        | some rest => some (.arr [], rest)
        | none => (scanItems fuel (skip rest)).map fun (items, rest) => (.arr items, rest)
      else
        match scanNumber (c :: rest) with
        | some (text, rest) => some (.number text, rest)
        | none => scanConstant (c :: rest)

def scanFields : Nat → List Char → Option (List (List Nat × Value) × List Char)
  | 0, _ => none
  | fuel + 1, cs => do
    let cs ← expect '"' cs
    let (key, cs) ← scanString cs
    let cs ← expect ':' (skip cs)
    let (v, cs) ← scanOnce fuel (skip cs)
    match expect '}' (skip cs) with
    | some cs => return ([(key, v)], cs)
    | none =>
      let cs ← expect ',' (skip cs)
      let (fields, cs) ← scanFields fuel (skip cs)
      return ((key, v) :: fields, cs)

def scanItems : Nat → List Char → Option (List Value × List Char)
  | 0, _ => none
  | fuel + 1, cs => do
    let (v, cs) ← scanOnce fuel cs
    match expect ']' (skip cs) with
    | some cs => return ([v], cs)
    | none =>
      let cs ← expect ',' (skip cs)
      let (items, cs) ← scanItems fuel (skip cs)
      return (v :: items, cs)

end

/-- `json.loads`: `none` where it raises. -/
def loads (cs : List Char) : Option Value :=
  if cs.head? = some '\ufeff' then none
  else
    match scanOnce (cs.length + 1) (skip cs) with
    | some (v, rest) => if skip rest = [] then some v else none
    | none => none

end Values

section Units

theorem units_plain {c : Char} (other : c ≠ '"' ∧ c ≠ '\\') (printed : ¬c.toNat < 0x20)
    (cs : List Char) :
    units .plain (c :: cs) = push c.toNat (units .plain cs) := by
  rw [units, if_neg other.1, if_neg other.2, if_neg printed]

theorem units_escape {c : Char} {code : Nat} (named : unescape c = some code) (other : c ≠ 'u')
    (cs : List Char) :
    units .plain ('\\' :: c :: cs) = push code (units .plain cs) := by
  rw [units, if_neg (by decide), if_pos rfl, units, if_neg other, named]

def hexChar (d : Nat) : Char := if d < 10 then Char.ofNat (d + 48) else Char.ofNat (d + 87)

/-- `{:04x}`. -/
def hex4 (n : Nat) : List Char :=
  [hexChar (n / 4096 % 16), hexChar (n / 256 % 16), hexChar (n / 16 % 16), hexChar (n % 16)]

theorem hexDigit_hexChar (d : Fin 16) : hexDigit (hexChar d) = some d.val := by
  revert d
  decide

theorem hexDigit_mod (n : Nat) : hexDigit (hexChar (n % 16)) = some (n % 16) :=
  hexDigit_hexChar ⟨n % 16, Nat.mod_lt _ (by decide)⟩

theorem units_hex {n : Nat} (small : n < 0x10000) (cs : List Char) :
    units .plain ('\\' :: 'u' :: (hex4 n ++ cs)) = push n (units .plain cs) := by
  have value : 16 * (16 * (16 * (16 * 0 + n / 4096 % 16) + n / 256 % 16) + n / 16 % 16) + n % 16 =
      n := by omega
  rw [units, if_neg (by decide), if_pos rfl, units, if_pos rfl, hex4]
  simp only [List.cons_append, List.nil_append, units, hexDigit_mod, value]
  rfl

theorem hexChar_plain (d : Fin 16) :
    hexChar d ≠ '"' ∧ hexChar d ≠ '\\' ∧ 0x20 ≤ (hexChar d).toNat := by
  revert d
  decide

theorem plain_of_hex4 {n : Nat} : ∀ c ∈ hex4 n, c ≠ '"' ∧ c ≠ '\\' ∧ 0x20 ≤ c.toNat := by
  have digit (m : Nat) := hexChar_plain ⟨m % 16, Nat.mod_lt _ (by decide)⟩
  simp only [hex4, List.forall_mem_cons]
  exact ⟨digit _, digit _, digit _, digit _, List.forall_mem_nil _⟩

theorem unescape_of_escapes {c n : Char} (named : escapes.lookup c = some n) :
    unescape n = some c.toNat ∧ n ≠ 'u' ∧ 0x20 ≤ n.toNat := by
  have each : ∀ pair ∈ escapes, unescape pair.2 = some pair.1.toNat ∧ pair.2 ≠ 'u' ∧
      0x20 ≤ pair.2.toNat := by
    decide
  obtain ⟨before, after, table, -⟩ := List.lookup_eq_some_iff.mp named
  apply each (c, n)
  rw [table]
  exact List.mem_append_right _ List.mem_cons_self

theorem not_quote_of_escapes {c : Char} (plain : escapes.lookup c = none) : c ≠ '"' ∧ c ≠ '\\' := by
  constructor
  · rintro rfl
    cases plain
  · rintro rfl
    cases plain

end Units

section Encoders

def pushAll {β : Type} (us : List Nat) (scanned : Option (List Nat × β)) : Option (List Nat × β) :=
  scanned.map fun (units, rest) => (us ++ units, rest)

/-- The code units of a character: itself, or the surrogates of one beyond the basic plane. -/
def Spells (c : Char) (us : List Nat) : Prop :=
  us = [c.toNat] ∨ 0x10000 ≤ c.toNat ∧
    us = [0xd800 + (c.toNat - 0x10000) / 0x400, 0xdc00 + (c.toNat - 0x10000) % 0x400]

/-- A way to write characters inside of a string. -/
structure Encodes (encode : Char → List Char) : Prop where
  reads : ∀ c, ∃ us, Spells c us ∧ ∀ rest, units .plain (encode c ++ rest) =
    pushAll us (units .plain rest)

theorem toNat_range (c : Char) : c.toNat < 0xd800 ∨ 0xdfff < c.toNat ∧ c.toNat < 0x110000 := c.valid

theorem joinSurrogates_cons {u : Nat} (alone : highSurrogate u = false) (us : List Nat) :
    joinSurrogates (u :: us) = u :: joinSurrogates us := by
  cases us with
  | nil => rfl
  | cons v us => rw [joinSurrogates, alone, Bool.false_and, if_neg Bool.false_ne_true]

theorem joinSurrogates_spelled {c : Char} {us : List Nat} (spells : Spells c us) (rest : List Nat) :
    joinSurrogates (us ++ rest) = c.toNat :: joinSurrogates rest := by
  have range := toNat_range c
  cases spells with
  | inl whole =>
    have alone : highSurrogate c.toNat = false := by
      rw [highSurrogate, Bool.and_eq_false_iff, decide_eq_false_iff_not, decide_eq_false_iff_not]
      omega
    rw [whole]
    exact joinSurrogates_cons alone rest
  | inr pair =>
    obtain ⟨beyond, rfl⟩ := pair
    have high : highSurrogate (0xd800 + (c.toNat - 0x10000) / 0x400) = true := by
      rw [highSurrogate, Bool.and_eq_true, decide_eq_true_iff, decide_eq_true_iff]
      omega
    have low : lowSurrogate (0xdc00 + (c.toNat - 0x10000) % 0x400) = true := by
      rw [lowSurrogate, Bool.and_eq_true, decide_eq_true_iff, decide_eq_true_iff]
      omega
    have code : 0x10000 + (0xd800 + (c.toNat - 0x10000) / 0x400 - 0xd800) * 0x400 +
        (0xdc00 + (c.toNat - 0x10000) % 0x400 - 0xdc00) = c.toNat := by omega
    rw [List.cons_append, List.singleton_append, joinSurrogates, high, low, Bool.and_self,
      if_pos rfl, code]

variable {encode : Char → List Char}

theorem Encodes.units_flatMap (encodes : Encodes encode) (s rest : List Char) :
    ∃ us, units .plain (s.flatMap encode ++ '"' :: rest) = some (us, rest) ∧
      joinSurrogates us = s.map Char.toNat := by
  induction s with
  | nil => exact ⟨[], by rw [List.flatMap_nil, List.nil_append, units, if_pos rfl], rfl⟩
  | cons c s ih =>
    obtain ⟨us, scanned, joined⟩ := ih
    obtain ⟨vs, spells, reads⟩ := encodes.reads c
    refine ⟨vs ++ us, ?_, ?_⟩
    · rw [List.flatMap_cons, List.append_assoc, reads, scanned]
      rfl
    · rw [joinSurrogates_spelled spells, joined]
      rfl

theorem Encodes.scanString (encodes : Encodes encode) (s rest : List Char) :
    scanString (s.flatMap encode ++ '"' :: rest) = some (s.map Char.toNat, rest) := by
  obtain ⟨us, scanned, joined⟩ := encodes.units_flatMap s rest
  rw [JsonText.scanString, scanned]
  exact congrArg (fun codes => some (codes, rest)) joined

/-- `ESCAPE_ASCII` and what `py_encode_basestring_ascii` puts in its place. -/
def escapeAscii (c : Char) : List Char :=
  match escapes.lookup c with
  | some n => ['\\', n]
  | none =>
    if ' ' ≤ c ∧ c ≤ '~' then [c]
    else if c.toNat < 0x10000 then '\\' :: 'u' :: hex4 c.toNat
    else
      '\\' :: 'u' :: (hex4 (0xd800 + (c.toNat - 0x10000) / 0x400) ++
        '\\' :: 'u' :: hex4 (0xdc00 + (c.toNat - 0x10000) % 0x400))

theorem units_named {c n : Char} (named : escapes.lookup c = some n) (rest : List Char) :
    units .plain (['\\', n] ++ rest) = pushAll [c.toNat] (units .plain rest) :=
  have letter := unescape_of_escapes named
  units_escape letter.1 letter.2.1 rest

theorem encodes_escapeAscii : Encodes escapeAscii where
  reads c := by
    rw [escapeAscii]
    cases named : escapes.lookup c with
    | some n => exact ⟨[c.toNat], Or.inl rfl, units_named named⟩
    | none =>
      dsimp only
      split
      next ascii =>
        have printed : ¬c.toNat < 0x20 := Nat.not_lt.mpr (UInt32.le_iff_toNat_le.mp ascii.1)
        exact ⟨[c.toNat], Or.inl rfl, units_plain (not_quote_of_escapes named) printed⟩
      split
      next basic => exact ⟨[c.toNat], Or.inl rfl, units_hex basic⟩
      next beyond =>
        have range := toNat_range c
        refine ⟨_, Or.inr ⟨Nat.le_of_not_lt beyond, rfl⟩, fun rest => ?_⟩
        have pair : ∀ us : Option (List Nat × List Char), ∀ u v, push u (push v us) =
            pushAll [u, v] us := by
          intro us u v
          cases us <;> rfl
        rw [List.cons_append, List.cons_append, List.append_assoc, units_hex (by omega),
          List.cons_append, List.cons_append, units_hex (by omega), pair]

end Encoders

section Objects

/-- A text that reads as a value before a comma or a brace. -/
structure Scalar (text : List Char) (v : Value) : Prop where
  starts : ∃ c cs, text = c :: cs ∧ space c = false
  scans : ∀ fuel d rest, d = ',' ∨ d = '}' →
    scanOnce (fuel + 1) (text ++ d :: rest) = some (v, d :: rest)

variable {encode : Char → List Char}

theorem skip_cons {c : Char} (stays : space c = false) (cs : List Char) :
    skip (c :: cs) = c :: cs :=
  List.dropWhile_cons_of_neg (by simp [stays])

theorem Scalar.skip {text : List Char} {v : Value} (scalar : Scalar text v) (rest : List Char) :
    skip (text ++ rest) = text ++ rest := by
  obtain ⟨c, cs, rfl, stays⟩ := scalar.starts
  exact skip_cons stays _

def quoted (encode : Char → List Char) (s : List Char) : List Char :=
  '"' :: (s.flatMap encode ++ ['"'])

theorem scalar_quoted (encodes : Encodes encode) (s : List Char) :
    Scalar (quoted encode s) (.str (s.map Char.toNat)) where
  starts := ⟨'"', _, rfl, rfl⟩
  scans fuel d rest _ := by
    rw [quoted, List.cons_append, List.append_assoc, List.singleton_append, scanOnce]
    simp only [if_pos, encodes.scanString]
    rfl

theorem loads_quoted (encodes : Encodes encode) (s : List Char) :
    loads (quoted encode s) = some (.str (s.map Char.toNat)) := by
  have scanned : scanOnce ((quoted encode s).length + 1) (quoted encode s) =
      some (.str (s.map Char.toNat), []) := by
    rw [quoted, scanOnce, if_pos rfl, encodes.scanString]
    rfl
  have skipped : skip (quoted encode s) = quoted encode s := skip_cons rfl _
  rw [loads, if_neg (by simp [quoted]), skipped, scanned]
  rfl

/-- The fields of an object, as `json.dumps` writes them without blanks. -/
def printFields (encode : Char → List Char) : List (List Char × List Char) → List Char
  | [] => ['}']
  | [(key, text)] => quoted encode key ++ ':' :: (text ++ ['}'])
  | (key, text) :: field :: fields =>
    quoted encode key ++ ':' :: (text ++ ',' :: printFields encode (field :: fields))

/-- Fields and what they read as. -/
def Reads : List (List Char × List Char) → List (List Nat × Value) → Prop :=
  List.Forall₂ fun field item => item.1 = field.1.map Char.toNat ∧ Scalar field.2 item.2

theorem expect_self (c : Char) (cs : List Char) : expect c (c :: cs) = some cs := if_pos rfl

theorem expect_other {c d : Char} (other : d ≠ c) (cs : List Char) : expect c (d :: cs) = none :=
  if_neg other

theorem quoted_append (s rest : List Char) :
    quoted encode s ++ rest = '"' :: (s.flatMap encode ++ '"' :: rest) := by
  rw [quoted, List.cons_append, List.append_assoc, List.singleton_append]

theorem scanFields_field (encodes : Encodes encode) {key text : List Char} {v : Value}
    (scalar : Scalar text v) {d : Char} (closes : d = ',' ∨ d = '}') (fuel : Nat)
    (rest : List Char) :
    scanFields (fuel + 2) (quoted encode key ++ ':' :: (text ++ d :: rest)) =
      match expect '}' (d :: rest) with
      | some rest => some ([(key.map Char.toNat, v)], rest)
      | none => do
        let cs ← expect ',' (d :: rest)
        let (fields, cs) ← scanFields (fuel + 1) (skip cs)
        return ((key.map Char.toNat, v) :: fields, cs) := by
  have stays : space d = false := by
    cases closes with
    | inl comma => exact comma ▸ rfl
    | inr brace => exact brace ▸ rfl
  have colon : skip (':' :: (text ++ d :: rest)) = ':' :: (text ++ d :: rest) := skip_cons rfl _
  rw [quoted_append, scanFields, expect_self]
  simp only [Option.bind_eq_bind, Option.bind_some, encodes.scanString, colon,
    expect_self, scalar.skip,
    scalar.scans _ _ _ closes, skip_cons stays]
  rfl

theorem scanFields_print (encodes : Encodes encode) {fields : List (List Char × List Char)}
    {items : List (List Nat × Value)} (reads : Reads fields items)
    (some_ : fields ≠ []) {fuel : Nat} (enough : fields.length < fuel) (rest : List Char) :
    scanFields fuel (printFields encode fields ++ rest) = some (items, rest) := by
  induction reads generalizing fuel with
  | nil => exact absurd rfl some_
  | @cons field item fields items same reads ih =>
    obtain ⟨key, text⟩ := field
    obtain ⟨codes, v⟩ := item
    obtain ⟨rfl, scalar⟩ := same
    obtain ⟨fuel, rfl⟩ : ∃ n, fuel = n + 2 :=
      ⟨fuel - 2, by simp only [List.length_cons] at enough; omega⟩
    cases reads with
    | nil =>
      rw [printFields, List.append_assoc, List.cons_append, List.append_assoc,
        List.singleton_append,
        scanFields_field encodes scalar (Or.inr rfl), expect_self]
    | @cons field item fields items here reads =>
      have fewer : (field :: fields).length < fuel + 1 := Nat.lt_of_succ_lt_succ enough
      have later := ih (List.cons_ne_nil _ _) fewer
      have starts : skip (printFields encode (field :: fields) ++ rest) =
          printFields encode (field :: fields) ++ rest := by
        cases fields with
        | nil => exact skip_cons rfl _
        | cons next fields => exact skip_cons rfl _
      rw [printFields, List.append_assoc, List.cons_append, List.append_assoc, List.cons_append,
        scanFields_field encodes scalar (Or.inl rfl), expect_other (by decide), expect_self]
      simp only [Option.bind_eq_bind, Option.bind_some, starts, later]
      rfl

/-- `json.dumps` of an object without blanks. -/
def printObject (encode : Char → List Char) (fields : List (List Char × List Char)) : List Char :=
  '{' :: printFields encode fields

theorem printFields_starts {fields : List (List Char × List Char)} (some_ : fields ≠ []) :
    ∃ cs, printFields encode fields = '"' :: cs := by
  match fields, some_ with
  | [field], _ => exact ⟨_, rfl⟩
  | field :: next :: fields, _ => exact ⟨_, rfl⟩

theorem length_le_printFields (fields : List (List Char × List Char)) :
    fields.length ≤ (printFields encode fields).length := by
  induction fields with
  | nil => exact Nat.zero_le _
  | cons field fields ih =>
    cases fields with
    | nil =>
      rw [printFields, List.length_append, List.length_cons, List.length_cons]
      simp only [List.length_nil]
      omega
    | cons next fields =>
      have here : (printFields encode (field :: next :: fields)).length =
          (quoted encode field.1).length +
          (field.2.length + ((printFields encode (next :: fields)).length + 1) + 1) := by
        rw [printFields, List.length_append, List.length_cons, List.length_append, List.length_cons]
      rw [here, List.length_cons]
      omega

theorem loads_print (encodes : Encodes encode) {fields : List (List Char × List Char)}
    {items : List (List Nat × Value)} (reads : Reads fields items) (some_ : fields ≠ []) :
    loads (printObject encode fields) = some (.obj items) := by
  obtain ⟨cs, text⟩ := @printFields_starts encode fields some_
  have enough := Nat.lt_succ_of_le (@length_le_printFields encode fields)
  have scanned := scanFields_print encodes reads some_ enough []
  have starts : skip (printFields encode fields) = printFields encode fields :=
    text ▸ skip_cons rfl cs
  have open_ : expect '}' (printFields encode fields) = none := text ▸ expect_other (by decide) cs
  have here : scanOnce ((printObject encode fields).length + 1) (printObject encode fields) =
      some (.obj items, []) := by
    rw [List.append_nil] at scanned
    rw [printObject, scanOnce, if_neg (by decide), if_pos rfl, starts, open_,
      List.length_cons, scanned]
    rfl
  have skipped : skip (printObject encode fields) = printObject encode fields := skip_cons rfl _
  rw [loads, if_neg (by simp [printObject]), skipped, here]
  rfl

/-- A number without a sign or an exponent: digits that begin with no zero but a single one, and a
fraction. -/
structure Decimal where
  whole : List Char
  frac : List Char
  digits : ∀ c ∈ whole ++ frac, digit c = true
  starts : whole = ['0'] ∨ ∃ c cs, whole = c :: cs ∧ c ≠ '0'

def Decimal.text (x : Decimal) : List Char := x.whole ++ if x.frac = [] then [] else '.' :: x.frac

theorem span_digits {cs : List Char} (digits : ∀ c ∈ cs, digit c = true) {d : Char}
    (stops : digit d = false) (rest : List Char) :
    (cs ++ d :: rest).takeWhile digit = cs ∧ (cs ++ d :: rest).dropWhile digit = d :: rest := by
  rw [List.takeWhile_append_of_pos digits, List.dropWhile_append_of_pos digits,
    List.takeWhile_cons_of_neg (by simp [stops]), List.dropWhile_cons_of_neg (by simp [stops]),
      List.append_nil]
  exact ⟨rfl, rfl⟩

theorem integer_whole (x : Decimal) {d : Char} (stops : digit d = false) (rest : List Char) :
    integer (x.whole ++ d :: rest) = some (x.whole, d :: rest) := by
  cases x.starts with
  | inl zero =>
    rw [zero]
    rfl
  | inr other =>
    obtain ⟨c, cs, whole, nonzero⟩ := other
    have digits := x.digits
    rw [whole, List.cons_append, List.forall_mem_cons, List.forall_mem_append] at digits
    have span := span_digits digits.2.1 stops rest
    rw [whole, List.cons_append, integer, if_neg nonzero, if_pos digits.1, span.1, span.2]

theorem ne_of_digit {c d : Char} (isDigit : digit c = true) (other : digit d = false) : c ≠ d := by
  rintro rfl
  rw [isDigit] at other
  cases other

theorem Decimal.head (x : Decimal) : ∃ c cs, x.text = c :: cs ∧ digit c = true := by
  have digits := (List.forall_mem_append.mp x.digits).1
  have some_ : ∃ c cs, x.whole = c :: cs := by
    cases x.starts with
    | inl zero => exact ⟨_, _, zero⟩
    | inr other => exact ⟨_, _, other.choose_spec.choose_spec.1⟩
  obtain ⟨c, cs, whole⟩ := some_
  rw [Decimal.text, whole, List.cons_append]
  exact ⟨c, _, rfl, digits c (whole ▸ List.mem_cons_self)⟩

theorem rest_of_number {d : Char} (closes : d = ',' ∨ d = '}') (rest : List Char) :
    digit d = false ∧ fraction (d :: rest) = ([], d :: rest) ∧
      exponent (d :: rest) = ([], d :: rest) := by
  cases closes with
  | inl comma =>
    subst comma
    exact ⟨rfl, rfl, rfl⟩
  | inr brace =>
    subst brace
    exact ⟨rfl, rfl, rfl⟩

theorem scanNumber_decimal (x : Decimal) {d : Char} (closes : d = ',' ∨ d = '}')
    (rest : List Char) :
    scanNumber (x.text ++ d :: rest) = some (x.text, d :: rest) := by
  obtain ⟨stops, noFraction, noExponent⟩ := rest_of_number closes rest
  obtain ⟨c, cs, starts, isDigit⟩ := x.head
  have unsigned : c ≠ '-' := ne_of_digit isDigit rfl
  have split : scanNumber (x.text ++ d :: rest) =
      (integer (x.text ++ d :: rest)).map fun (whole, cs) =>
      (whole ++ (fraction cs).1 ++ (exponent (fraction cs).2).1, (exponent (fraction cs).2).2) := by
    rw [starts, List.cons_append, scanNumber]
    simp only [if_neg unsigned, List.nil_append]
  rw [split, Decimal.text]
  cases frac : x.frac with
  | nil =>
    rw [if_pos rfl, List.append_nil, integer_whole x stops, Option.map_some]
    simp only [noFraction, noExponent, List.append_nil]
  | cons f fs =>
    have digits := (List.forall_mem_append.mp x.digits).2
    rw [frac] at digits
    have span := span_digits digits stops rest
    have read : fraction ('.' :: (f :: fs ++ d :: rest)) = ('.' :: f :: fs, d :: rest) := by
      rw [fraction, if_pos rfl, optionalDigits, span.1, span.2]
      rfl
    rw [if_neg (List.cons_ne_nil f fs), List.append_assoc, List.cons_append, integer_whole x rfl,
      Option.map_some]
    simp only [read, noExponent, List.append_nil]

theorem scalar_decimal (x : Decimal) : Scalar x.text (.number x.text) where
  starts := by
    obtain ⟨c, cs, starts, isDigit⟩ := x.head
    refine ⟨c, cs, starts, ?_⟩
    have notBlank (b : Char) (blank : digit b = false) : decide (c = b) = false :=
      decide_eq_false (ne_of_digit isDigit blank)
    rw [space, notBlank ' ' rfl, notBlank '\t' rfl, notBlank '\n' rfl, notBlank '\r' rfl]
    rfl
  scans fuel d rest closes := by
    have scanned := scanNumber_decimal x closes rest
    obtain ⟨c, cs, starts, isDigit⟩ := x.head
    rw [starts, List.cons_append] at scanned
    rw [starts, List.cons_append, scanOnce, if_neg (ne_of_digit isDigit rfl),
      if_neg (ne_of_digit isDigit rfl),
      if_neg (ne_of_digit isDigit rfl), scanned]

end Objects

section Arrays

variable {encode : Char → List Char}

def printItems (encode : Char → List Char) : List (List Char) → List Char
  | [] => [']']
  | [s] => quoted encode s ++ [']']
  | s :: t :: ss => quoted encode s ++ ',' :: ' ' :: printItems encode (t :: ss)

/-- `json.dumps` of a list of strings. -/
def printArray (encode : Char → List Char) (ss : List (List Char)) : List Char :=
  '[' :: printItems encode ss

theorem scanOnce_quoted (encodes : Encodes encode) (s : List Char) (fuel : Nat)
    (rest : List Char) :
    scanOnce (fuel + 1) (quoted encode s ++ rest) = some (.str (s.map Char.toNat), rest) := by
  rw [quoted_append, scanOnce, if_pos rfl, encodes.scanString]
  rfl

theorem printItems_starts (s : List Char) (ss : List (List Char)) :
    ∃ cs, printItems encode (s :: ss) = '"' :: cs := by
  cases ss with
  | nil => exact ⟨_, rfl⟩
  | cons t ss => exact ⟨_, rfl⟩

theorem scanItems_print (encodes : Encodes encode) (s : List Char) (ss : List (List Char))
    {fuel : Nat} (enough : ss.length + 1 < fuel) :
    scanItems fuel (printItems encode (s :: ss)) =
      some ((s :: ss).map fun s => .str (s.map Char.toNat), []) := by
  induction ss generalizing s fuel with
  | nil =>
    obtain ⟨fuel, rfl⟩ : ∃ n, fuel = n + 2 := ⟨fuel - 2, by omega⟩
    rw [printItems, scanItems, scanOnce_quoted encodes]
    rfl
  | cons t ss ih =>
    obtain ⟨fuel, rfl⟩ : ∃ n, fuel = n + 2 := ⟨fuel - 2, by omega⟩
    have later := @ih t (fuel + 1) (by simp only [List.length_cons] at enough; omega)
    have starts : skip (' ' :: printItems encode (t :: ss)) = printItems encode (t :: ss) := by
      obtain ⟨cs, text⟩ := @printItems_starts encode t ss
      rw [text]
      exact @skip_cons '"' rfl cs
    have comma : skip (',' :: ' ' :: printItems encode (t :: ss)) =
        ',' :: ' ' :: printItems encode (t :: ss) :=
      skip_cons rfl _
    rw [printItems, scanItems, scanOnce_quoted encodes]
    simp only [Option.bind_eq_bind, Option.bind_some]
    rw [comma, expect_other (by decide), expect_self]
    simp only [Option.bind_some, starts, later]
    rfl

theorem length_le_printItems (ss : List (List Char)) :
    ss.length + 1 ≤ (printItems encode ss).length := by
  induction ss with
  | nil => exact Nat.le_refl 1
  | cons s ss ih =>
    cases ss with
    | nil => simp [printItems, quoted]
    | cons t ss =>
      rw [printItems, List.length_append]
      simp only [List.length_cons] at ih ⊢
      omega

theorem loads_printArray (encodes : Encodes encode) (ss : List (List Char)) :
    loads (printArray encode ss) = some (.arr (ss.map fun s => .str (s.map Char.toNat))) := by
  have here : scanOnce ((printArray encode ss).length + 1) (printArray encode ss) =
      some (.arr (ss.map fun s => .str (s.map Char.toNat)), []) := by
    have enough := Nat.lt_succ_of_le (@length_le_printItems encode ss)
    rw [printArray, scanOnce, if_neg (by decide), if_neg (by decide), if_pos rfl,
      List.length_cons]
    cases ss with
    | nil => rfl
    | cons s ss =>
      rw [List.length_cons] at enough
      obtain ⟨cs, text⟩ := @printItems_starts encode s ss
      have starts : skip (printItems encode (s :: ss)) = printItems encode (s :: ss) :=
        text ▸ skip_cons rfl cs
      have filled : expect ']' (printItems encode (s :: ss)) = none :=
        text ▸ expect_other (by decide) cs
      rw [starts, filled, scanItems_print encodes s ss (Nat.lt_of_succ_lt enough)]
      rfl
  have skipped : skip (printArray encode ss) = printArray encode ss := skip_cons rfl _
  rw [loads, if_neg (by simp [printArray]), skipped, here]
  rfl

end Arrays

end DreamStudio.Library.JsonText
