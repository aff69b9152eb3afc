import Mathlib.Data.List.Infix

namespace DreamStudio.Library

/-- A float as far as a database column shows it: a NaN, or the text SQLite stores for it. -/
inductive PyFloat
  | nan
  | number (zero : Bool) (text : String)
  deriving DecidableEq

/-- The values `json.loads` builds. -/
inductive Json : Type
  | null
  | bool (b : Bool)
  | int (n : Int)
  | float (x : PyFloat)
  | str (s : String)
  | arr (xs : List Json)
  | obj (fields : List (String × Json))

namespace Json

/-- `bool(value)`: what `or` and `if` ask of a value. -/
def truthy : Json → Bool
  | .null => false
  | .bool b => b
  | .int n => n ≠ 0
  | .float .nan => true
  | .float (.number zero _) => !zero
  | .str s => s ≠ ""
  | .arr xs => !xs.isEmpty
  | .obj fields => !fields.isEmpty

def isNull : Json → Bool
  | .null => true
  | _ => false

/-- `a or b`. -/
def or (a b : Json) : Json := if a.truthy then a else b

/-- `dict.get(key)` on the fields of an object; `None` when the key is absent. -/
def lookup (fields : List (String × Json)) (key : String) : Json :=
  match fields.find? (fun f => f.1 = key) with
  | some f => f.2
  | none => .null

/-- `dict.get(key, default)`: the default stands in for an absent key only, never for a null. -/
def lookupD (fields : List (String × Json)) (key : String) (default : Json) : Json :=
  match fields.find? (fun f => f.1 = key) with
  | some f => f.2
  | none => default

def hasKey (fields : List (String × Json)) (key : String) : Bool := fields.any (fun f => f.1 = key)

/-- `str(value)`; how a list, an object or a float is spelled is left to `repr`. -/
def pyStr (repr : Json → String) : Json → String
  | .null => "None"
  | .bool true => "True"
  | .bool false => "False"
  | .int n => toString n
  | .str s => s
  | v => repr v

/-- `type(value).__name__`. -/
def pyType : Json → String
  | .null => "NoneType"
  | .bool _ => "bool"
  | .int _ => "int"
  | .float _ => "float"
  | .str _ => "str"
  | .arr _ => "list"
  | .obj _ => "dict"

/-- A column read back: SQL's NULL is `None`. -/
def ofOption : Option String → Json
  | none => .null
  | some s => .str s

@[simp] theorem truthy_null : Json.null.truthy = false := rfl

@[simp] theorem truthy_str (s : String) : (Json.str s).truthy = decide (s ≠ "") := rfl

@[simp] theorem pyStr_str (repr : Json → String) (s : String) : (Json.str s).pyStr repr = s := rfl

end Json

/-- Whitespace as `str.strip` sees it. -/
def pySpace (c : Char) : Bool :=
  (0x9 ≤ c.val && c.val ≤ 0xd) || (0x1c ≤ c.val && c.val ≤ 0x20) || c.val = 0x85 || c.val = 0xa0 ||
    c.val = 0x1680 || (0x2000 ≤ c.val && c.val ≤ 0x200a) || c.val = 0x2028 || c.val = 0x2029 ||
    c.val = 0x202f || c.val = 0x205f || c.val = 0x3000

def pyStrip (s : String) : String :=
  String.ofList (((s.toList.dropWhile pySpace).reverse.dropWhile pySpace).reverse)

/-- What `str.splitlines` ends a line at. -/
def lineBreak (c : Char) : Bool :=
  c.val ∈ [0xa, 0xb, 0xc, 0xd, 0x1c, 0x1d, 0x1e, 0x85, 0x2028, 0x2029]

/-- `s.splitlines()`, empty lines apart. -/
def splitLines (s : String) : List String :=
  (s.toList.splitOnP lineBreak).map String.ofList

/-- `s.lower()` on ASCII text. -/
def pyLower (s : String) : String := String.ofList (s.toList.map Char.toLower)

/-- `s.upper()` on ASCII text. -/
def pyUpper (s : String) : String := String.ofList (s.toList.map Char.toUpper)

/-- `s.startswith(prefix)`. -/
def startsWith (s pre : String) : Bool := pre.toList.isPrefixOf s.toList

/-- `s.removeprefix(prefix)`. -/
def removePrefix (s pre : String) : String :=
  if startsWith s pre then String.ofList (s.toList.drop pre.toList.length) else s

theorem startsWith_append (pre s : String) : startsWith (pre ++ s) pre = true := by
  simp [startsWith]

theorem append_removePrefix {s pre : String} (h : startsWith s pre = true) :
    pre ++ removePrefix s pre = s := by
  unfold removePrefix
  rw [if_pos h]
  obtain ⟨rest, hrest⟩ := List.isPrefixOf_iff_prefix.mp h
  rw [← hrest, List.drop_left, ← String.toList_inj, String.toList_append, String.toList_ofList,
    hrest]

/-- `part in s`. -/
def contains (s part : String) : Bool := s.toList.tails.any (part.toList.isPrefixOf ·)

end DreamStudio.Library
