import NodeAssembly.Value.Basic

/-! Changing the type of a value, by the name of a type or after the type of
another value. -/

namespace NodeAssembly

open NodeAssembly.Text

/-- Whether the name is that of a type: one of four letters, or the letter `i`
with a radix from 2 to 36. -/
def CastType.isName (name : String) : Bool :=
  match name.toList with
  | ['i'] | ['f'] | ['s'] | ['c'] => true
  | 'i' :: digits => (readUnsigned 10 0x100000000 digits).any fun base => 2 ≤ base && base ≤ 36
  | _ => false

namespace Value

/-- The text of one character, if the code is one. -/
def characterText (code : Int32) : String :=
  let number := code.toUInt32.toNat
  if number.isValidChar then String.ofList [Char.ofNat number] else ""

/-- An integer becomes the character with that code and a text the code of its
first character. -/
def castCharacter : Value → Value
  | .int code => .str (characterText code)
  | .str text => .int (Int32.ofNat ((text.toList.head?).elim 0 Char.toNat))
  | _ => .int (-1)

/-- An integer in a base that a name gives after its first letter. -/
def castRadix (value : Value) (name : String) : Except Fault Value :=
  match readUnsigned 10 0x100000000 name.toList.tail with
  | some base =>
    match readInt32 base (trim value.text.toList) with
    | some number => .ok (.int number)
    | none => .error (.invalidCast name)
  | none => .error (.invalidCast name)

def castNamed (value : Value) (name : String) : Except Fault Value :=
  match name.toList with
  | ['c'] => .ok value.castCharacter
  | ['i'] => .ok (.int value.toInt)
  | ['f'] => .ok (.float value.toFloat)
  | ['s'] => .ok (.str value.text)
  | _ => if CastType.isName name then value.castRadix name else .error (.invalidCast name)

def cast (value kind : Value) : Except Fault Value :=
  match kind with
  | .str name => value.castNamed name
  | .int _ => .ok (.int value.toInt)
  | .float _ => .ok (.float value.toFloat)
  | .null => .ok .null
  | .ref _ => .ok value

end Value

end NodeAssembly
