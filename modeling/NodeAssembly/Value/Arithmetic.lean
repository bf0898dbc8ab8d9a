import NodeAssembly.Value.Basic

/-! The operators of the accumulator on resolved values. The left operand
decides what the operator means. Integers wrap around at 32 bits, and a text
that would be longer than the limit is a fault. -/

namespace NodeAssembly

open NodeAssembly.Text

/-- The most bytes that a text made by an operator may have. -/
def textLimit : Nat := 1048576

/-- Passes if a text of `length` bytes may be made. -/
def checkLength (length : Nat) : Except Fault Unit :=
  if length > textLimit then .error (.outOfMemory length textLimit) else .ok ()

namespace Value

/-- Two texts joined, if the result is within the limit. -/
def joined (first second : String) : Except Fault Value := do
  checkLength (first.utf8ByteSize + second.utf8ByteSize)
  return .str (first ++ second)

def add : Value → Value → Except Fault Value
  | .null, _ => .ok .null
  | .int number, .str tail => joined (integer number.toInt) tail
  | .int number, right => .ok (.int (number + right.toInt))
  | .float number, right => .ok (.float (number + right.toFloat))
  | .str head, .null => .ok (.str head)
  | .str head, right => joined head right.text
  | .ref register, _ => .ok (.ref register)

/-- The text without the first occurrence of `pattern` that starts within the
next `places` characters. `before` holds what was passed over, last character
first. -/
def removeWithin (pattern : List Char) : Nat → List Char → List Char → List Char
  | 0, before, text => before.reverseAux text
  | _ + 1, before, [] => before.reverse
  | places + 1, before, char :: rest =>
    if pattern.isPrefixOf (char :: rest) then
      before.reverseAux ((char :: rest).drop pattern.length)
    else removeWithin pattern places (char :: before) rest

/-- The text without the first occurrence of `pattern`. None starts where fewer
characters are left than the pattern has. -/
def removeFirst (pattern text : List Char) : List Char :=
  removeWithin pattern (text.length + 1 - pattern.length) [] text

/-- How many of `length` characters a factor keeps. -/
def keptCharacters (factor : Float32) (length : Nat) : Nat :=
  let kept := factor.abs * Float32.ofNat length
  ((Decimal.Binary.ofFloat kept).saturate 0 0xFFFFFFFFFFFFFFFF).toNat

def sub : Value → Value → Except Fault Value
  | .null, _ => .ok .null
  | .int number, right => .ok (.int (number - right.toInt))
  | .float number, right => .ok (.float (number - right.toFloat))
  | .str text, .str pattern =>
    .ok (.str (String.ofList (removeFirst pattern.toList text.toList)))
  | .str text, .int count =>
    .ok (.str (String.ofList (text.toList.take count.toInt.toNat)))
  | .str text, .float factor =>
    let chars := text.toList
    .ok (.str (String.ofList (chars.take (keptCharacters factor chars.length))))
  | left, _ => .ok left

/-- `count` copies of a text. -/
def copies (text : List Char) (count : Nat) : List Char :=
  if text.isEmpty then [] else (List.replicate count text).flatten

/-- The characters of a text over and over, up to `count` of them. -/
def cycled (text : List Char) (count : Nat) : List Char :=
  copies text (count / text.length) ++ text.take (count % text.length)

/-- The most bytes that a character of the text has. -/
def widest (text : List Char) : Nat :=
  text.foldl (fun most char => max most char.utf8Size) 0

/-- A text stretched or cut by a factor. The length that is checked is that of
as many of the widest characters, counted in a word of 64 bits. -/
def stretched (text : List Char) (factor : Float32) : Except Fault Value := do
  let total := (Decimal.Binary.ofFloat (factor * Float32.ofNat text.length)).saturate
    (-0x8000000000000000) 0x7FFFFFFFFFFFFFFF
  if text.isEmpty || total ≤ 0 then
    return .str ""
  else
    checkLength (min 0xFFFFFFFFFFFFFFFF (total.toNat * widest text))
    return .str (String.ofList (cycled text total.toNat))

/-- Every character of the first text followed by every character of the
second. -/
def pairs (first second : List Char) : List Char :=
  first.flatMap fun left => second.flatMap fun right => [left, right]

def mul : Value → Value → Except Fault Value
  | .null, _ => .ok .null
  | .int number, right => .ok (.int (number * right.toInt))
  | .float number, right => .ok (.float (number * right.toFloat))
  | .str text, .int count => do
    checkLength (text.utf8ByteSize * count.toInt.toNat)
    return .str (String.ofList (copies text.toList count.toInt.toNat))
  | .str text, .float factor => stretched text.toList factor
  | .str _, .null => .ok (.str "")
  | .str first, .str second => do
    checkLength (second.length * first.utf8ByteSize + first.length * second.utf8ByteSize)
    return .str (String.ofList (pairs first.toList second.toList))
  | left, _ => .ok left

/-- Integer division goes toward zero, and the least integer divided by minus
one is itself. -/
def div : Value → Value → Except Fault Value
  | .null, _ => .ok .null
  | .int number, right =>
    let divisor := right.toInt
    if divisor == 0 then .error .divisionByZero else .ok (.int (number / divisor))
  | .float number, right =>
    let divisor := right.toFloat
    if divisor == Float32.ofBits 0 then .error .divisionByZero
    else .ok (.float (number / divisor))
  | left, _ => .ok left

/-- The integer that stands for a truth value. -/
def truth (condition : Bool) : Value :=
  .int (if condition then 100 else 0)

/-- The character whose code is the complement of the lowest byte. -/
def complement (char : Char) : Char :=
  Char.ofNat (255 - char.toNat % 256)

/-- Negation of a number, which is true if it is zero; the complement of every
character of a text. -/
def not : Value → Value
  | .int number => truth (number == 0)
  | .float number => truth (Decimal.toInt32 number == 0)
  | .str text => .str (String.ofList (text.toList.map complement))
  | value => value

/-! Digits are counted from the left in the decimal form of a number, where a
minus sign takes the first position. -/

/-- The position that an index means, if it is not negative. -/
def position? (index : Int32) : Option Nat :=
  if index < 0 then none else some index.toInt.toNat

/-- The digit of an integer at a position, zero where there is none. -/
def digitAt (number : Int32) (position : Option Nat) : Nat :=
  ((position.bind fun index => (decimal number.toInt)[index]?).bind (digitIn 10)).getD 0

def digit (value : Value) (index : Int32) : Value :=
  match value with
  | .int number => .int (Int32.ofNat (digitAt number (position? index)))
  | .float number => .int (Int32.ofNat (digitAt (Decimal.toInt32 number) (position? index)))
  | .str text =>
    .str (String.ofList ((position? index).bind fun index => text.toList[index]?).toList)
  | value => value

/-- The text with the character at a position replaced, if it has one there. -/
def replaceAt (text : List Char) (index : Nat) (replacement : List Char) : Option (List Char) :=
  if index < text.length then some (text.take index ++ replacement ++ text.drop (index + 1))
  else none

/-- The number with the digit at `index` replaced by the first digit of
`digit`, or the number itself if the result is not in 32 bits. -/
def setDigitOfNumber (number : Int32) (index : Nat) (digit : Int32) : Int32 :=
  let replacement := (decimalNat digit.toInt.natAbs).take 1
  ((replaceAt (decimal number.toInt) index replacement).bind (readInt32 10)).getD number

def setDigit (value : Value) (index : Int32) (digit : Value) : Value :=
  match position? index with
  | none => value
  | some index =>
    match value with
    | .int number => .int (setDigitOfNumber number index digit.toInt)
    | .float number => .int (setDigitOfNumber (Decimal.toInt32 number) index digit.toInt)
    | .str text =>
      match replaceAt text.toList index digit.text.toList with
      | some replaced => .str (String.ofList replaced)
      | none => .str text
    | value => value

end Value

end NodeAssembly
