import NodeAssembly.Value.Basic

/-! The order that the test instructions use. Nothing is less than everything
but itself and blank text, to which it is equal. Of other values the left one
decides how the right one is taken. -/

namespace NodeAssembly

open NodeAssembly.Text

namespace Text

/-- The order of texts by their first difference. -/
def order : List Char → List Char → Ordering
  | [], [] => .eq
  | [], _ :: _ => .lt
  | _ :: _, [] => .gt
  | first :: firsts, second :: seconds =>
    if first = second then order firsts seconds
    else if first < second then .lt
    else .gt

end Text

namespace Value

/-- A text that counts as nothing: only blanks, or a single NUL. -/
def isBlankText (text : String) : Bool :=
  isAllBlank text.toList || text.toList == ['\x00']

def orderIntegers (first second : Int32) : Ordering :=
  if first < second then .lt else if first = second then .eq else .gt

/-- The order of numbers, with the undefined number past all others. -/
def orderFloats (first second : Float32) : Ordering :=
  match first.isNaN, second.isNaN with
  | true, true => .eq
  | true, false => .gt
  | false, true => .lt
  | false, false => if first < second then .lt else if first == second then .eq else .gt

def order : Value → Value → Ordering
  | .null, .null => .eq
  | .null, .str text => if isBlankText text then .eq else .lt
  | .null, _ => .lt
  | .str text, .null => if isBlankText text then .eq else .gt
  | _, .null => .gt
  | .int first, right => orderIntegers first right.toInt
  | .float first, right => orderFloats first right.toFloat
  | .str first, right => Text.order first.toList right.text.toList
  | .ref _, _ => .eq

end Value

end NodeAssembly
