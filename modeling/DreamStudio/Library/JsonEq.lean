import DreamStudio.Library.Json

namespace DreamStudio.Library.Json

mutual

/-- Equality of two values; of two objects, with their fields in one order. -/
def same : Json → Json → Bool
  | .null, .null => true
  | .bool a, .bool b => a = b
  | .int m, .int n => m = n
  | .float x, .float y => x = y
  | .str s, .str t => s = t
  | .arr xs, .arr ys => sameList xs ys
  | .obj f, .obj g => sameFields f g
  | _, _ => false

def sameList : List Json → List Json → Bool
  | [], [] => true
  | x :: xs, y :: ys => same x y && sameList xs ys
  | _, _ => false

def sameFields : List (String × Json) → List (String × Json) → Bool
  | [], [] => true
  | (k, x) :: f, (l, y) :: g => decide (k = l) && same x y && sameFields f g
  | _, _ => false

end

mutual

theorem same_iff : (a b : Json) → (same a b = true ↔ a = b)
  | .arr xs, .arr ys => by simp [same, sameList_iff xs ys]
  | .obj f, .obj g => by simp [same, sameFields_iff f g]
  | .null, b => by cases b <;> simp [same]
  | .bool _, b => by cases b <;> simp [same]
  | .int _, b => by cases b <;> simp [same]
  | .float _, b => by cases b <;> simp [same]
  | .str _, b => by cases b <;> simp [same]
  | .arr _, .null | .arr _, .bool _ | .arr _, .int _ | .arr _, .float _ | .arr _,
    .str _ | .arr _, .obj _ => by
    simp [same]
  | .obj _, .null | .obj _, .bool _ | .obj _, .int _ | .obj _, .float _ | .obj _,
    .str _ | .obj _, .arr _ => by
    simp [same]

theorem sameList_iff : (xs ys : List Json) → (sameList xs ys = true ↔ xs = ys)
  | [], [] | [], _ :: _ | _ :: _, [] => by simp [sameList]
  | x :: xs, y :: ys => by simp [sameList, same_iff x y, sameList_iff xs ys]

theorem sameFields_iff : (f g : List (String × Json)) → (sameFields f g = true ↔ f = g)
  | [], [] | [], _ :: _ | _ :: _, [] => by simp [sameFields]
  | (k, x) :: f, (l, y) :: g => by simp [sameFields, same_iff x y, sameFields_iff f g, and_assoc]

end

instance : DecidableEq Json := fun a b => decidable_of_iff (same a b = true) (same_iff a b)

end DreamStudio.Library.Json
