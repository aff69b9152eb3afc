import Mathlib.Data.List.Basic

namespace DreamStudio.Library.Utf8

/-- A sequence that has begun: the bytes still to come, the range of the next one, and the bits so
far. -/
structure Open where
  more : Nat
  low : Nat
  high : Nat
  value : Nat

def replacement : Char := '\ufffd'

def first (b : Nat) : List Char × Option Open :=
  if b < 0x80 then ([Char.ofNat b], none)
  else if b < 0xc2 then ([replacement], none)
  else if b < 0xe0 then ([], some ⟨0, 0x80, 0xbf, b - 0xc0⟩)
  else if b = 0xe0 then ([], some ⟨1, 0xa0, 0xbf, 0⟩)
  else if b = 0xed then ([], some ⟨1, 0x80, 0x9f, 0xd⟩)
  else if b < 0xf0 then ([], some ⟨1, 0x80, 0xbf, b - 0xe0⟩)
  else if b = 0xf0 then ([], some ⟨2, 0x90, 0xbf, 0⟩)
  else if b < 0xf4 then ([], some ⟨2, 0x80, 0xbf, b - 0xf0⟩)
  else if b = 0xf4 then ([], some ⟨2, 0x80, 0x8f, 4⟩)
  else ([replacement], none)

/-- The byte that cannot go on with a sequence ends it and begins anew. -/
def step : Option Open → Nat → List Char × Option Open
  | none, b => first b
  | some s, b =>
    if s.low ≤ b ∧ b ≤ s.high then
      let value := 64 * s.value + (b - 0x80)
      match s.more with
      | 0 => ([Char.ofNat value], none)
      | more + 1 => ([], some ⟨more, 0x80, 0xbf, value⟩)
    else (replacement :: (first b).1, (first b).2)

def decodeFrom : Option Open → List UInt8 → List Char
  | none, [] => []
  | some _, [] => [replacement]
  | s, b :: bs => (step s b.toNat).1 ++ decodeFrom (step s b.toNat).2 bs

/-- The text of bytes, the longest beginning of a sequence in each malformed place replaced: what
`bytes.decode("utf-8", "replace")` and `String::from_utf8_lossy` make of them. -/
def decode (bs : List UInt8) : List Char := decodeFrom none bs

/-- `s.encode("utf-8")`, `s.as_bytes()`. -/
def encode (cs : List Char) : List UInt8 := cs.flatMap String.utf8EncodeChar

theorem decodeFrom_cons (s : Option Open) (b : UInt8) (bs : List UInt8) :
    decodeFrom s (b :: bs) = (step s b.toNat).1 ++ decodeFrom (step s b.toNat).2 bs := by
  cases s <;> rfl

section RoundTrip

variable {n : Nat} (bs : List UInt8)

theorem decodeFrom_more {s : Open} (ranged : s.low ≤ n ∧ n ≤ s.high) (small : n < 256) :
    decodeFrom (some s) (UInt8.ofNat n :: bs) =
      match s.more with
      | 0 => Char.ofNat (64 * s.value + (n - 0x80)) :: decodeFrom none bs
      | more + 1 => decodeFrom (some ⟨more, 0x80, 0xbf, 64 * s.value + (n - 0x80)⟩) bs := by
  rw [decodeFrom_cons, UInt8.toNat_ofNat_of_lt' small, step, if_pos ranged]
  cases s.more <;> rfl

theorem decodeFrom_first (small : n < 256) :
    decodeFrom none (UInt8.ofNat n :: bs) = (first n).1 ++ decodeFrom (first n).2 bs := by
  rw [decodeFrom_cons, UInt8.toNat_ofNat_of_lt' small, step]

theorem first_two (low : 0xc2 ≤ n) (high : n < 0xe0) :
    first n = ([], some ⟨0, 0x80, 0xbf, n - 0xc0⟩) := by
  rw [first, if_neg (by omega), if_neg (by omega), if_pos high]

theorem first_three (low : 0xe0 ≤ n) (high : n < 0xf0) :
    ∃ s, first n = ([], some s) ∧ s.more = 1 ∧ s.value = n - 0xe0 ∧
      s.low = (if n = 0xe0 then 0xa0 else 0x80) ∧ s.high = (if n = 0xed then 0x9f else 0xbf) := by
  rw [first, if_neg (by omega), if_neg (by omega), if_neg (by omega)]
  by_cases least : n = 0xe0
  · subst least
    exact ⟨_, rfl, rfl, rfl, rfl, rfl⟩
  by_cases surrogates : n = 0xed
  · subst surrogates
    exact ⟨_, rfl, rfl, rfl, rfl, rfl⟩
  rw [if_neg least, if_neg surrogates, if_pos high, if_neg least, if_neg surrogates]
  exact ⟨_, rfl, rfl, rfl, rfl, rfl⟩

theorem first_four (low : 0xf0 ≤ n) (high : n ≤ 0xf4) :
    ∃ s, first n = ([], some s) ∧ s.more = 2 ∧ s.value = n - 0xf0 ∧
      s.low = (if n = 0xf0 then 0x90 else 0x80) ∧ s.high = (if n = 0xf4 then 0x8f else 0xbf) := by
  have cases : n = 0xf0 ∨ n = 0xf1 ∨ n = 0xf2 ∨ n = 0xf3 ∨ n = 0xf4 := by omega
  rcases cases with rfl | rfl | rfl | rfl | rfl <;> exact ⟨_, rfl, rfl, rfl, rfl, rfl⟩

theorem decode_encodeChar (c : Char) :
    decodeFrom none (String.utf8EncodeChar c ++ bs) = c :: decodeFrom none bs := by
  have range : c.val.toNat < 0xd800 ∨ 0xdfff < c.val.toNat ∧ c.val.toNat < 0x110000 := c.valid
  have same : Char.ofNat c.val.toNat = c := Char.ofNat_toNat c
  rw [String.utf8EncodeChar]
  generalize c.val.toNat = v at range same
  split
  next one =>
    have ascii : first v = ([Char.ofNat v], none) := if_pos (by omega)
    rw [List.singleton_append, decodeFrom_first _ (by omega), ascii, same]
    rfl
  split
  next two =>
    have value : 64 * (v / 64 % 0x20 + 0xc0 - 0xc0) + (v % 0x40 + 0x80 - 0x80) = v := by omega
    rw [List.cons_append, List.singleton_append, decodeFrom_first _ (by omega),
      first_two (by omega) (by omega),
      List.nil_append, decodeFrom_more _ (by dsimp only; omega) (by omega)]
    dsimp only
    rw [value, same]
  split
  next three =>
    have value : 64 * (64 * (v / 4096 % 0x10 + 0xe0 - 0xe0) + (v / 64 % 0x40 + 0x80 - 0x80)) +
        (v % 0x40 + 0x80 - 0x80) = v := by omega
    obtain ⟨s, begins, more, bits, low, high⟩ :=
      @first_three (v / 4096 % 0x10 + 0xe0) (by omega) (by omega)
    rw [List.cons_append, List.cons_append, List.singleton_append,
      decodeFrom_first _ (by omega), begins,
      List.nil_append, decodeFrom_more _ (by rw [low, high]; constructor <;> split <;> omega)
        (by omega), more]
    dsimp only
    rw [decodeFrom_more _ (by dsimp only; omega) (by omega), bits]
    dsimp only
    rw [value, same]
  next four =>
    have value :
        64 * (64 * (64 * (v / 262144 % 0x08 + 0xf0 - 0xf0) + (v / 4096 % 0x40 + 0x80 - 0x80)) +
          (v / 64 % 0x40 + 0x80 - 0x80)) + (v % 0x40 + 0x80 - 0x80) = v := by omega
    obtain ⟨s, begins, more, bits, low, high⟩ :=
      @first_four (v / 262144 % 0x08 + 0xf0) (by omega) (by omega)
    rw [List.cons_append, List.cons_append, List.cons_append, List.singleton_append,
      decodeFrom_first _ (by omega),
      begins, List.nil_append, decodeFrom_more
        _ (by rw [low, high]; constructor <;> split <;> omega) (by omega), more]
    dsimp only
    rw [decodeFrom_more _ (by dsimp only; omega) (by omega)]
    dsimp only
    rw [decodeFrom_more _ (by dsimp only; omega) (by omega), bits]
    dsimp only
    rw [value, same]

theorem decode_encode (cs : List Char) : decode (encode cs) = cs := by
  rw [decode]
  induction cs with
  | nil => rfl
  | cons c cs ih =>
    rw [encode, List.flatMap_cons, decode_encodeChar]
    exact congrArg (c :: ·) ih

end RoundTrip

end DreamStudio.Library.Utf8
