/-! Bytes as text. Bytes that are no well-formed UTF-8 are read as U+FFFD, one
for each longest run of bytes that starts a character and is then broken off. -/

namespace NodeAssembly.Text

/-- A character whose first bytes have been read: the bits so far, how many
bytes are missing, and the bounds of the next one. -/
structure Partial where
  code : Nat
  missing : Nat
  least : UInt8
  most : UInt8
deriving DecidableEq

/-- What a byte means where a character may start. -/
inductive Opening where
  | complete (char : Char)
  | incomplete (start : Partial)
  | invalid

/-- Overlong forms, surrogates and codes past U+10FFFF are excluded by the
bounds of the second byte. -/
def opening (byte : UInt8) : Opening :=
  let code := byte.toNat
  if byte < 0x80 then .complete (Char.ofNat code)
  else if byte < 0xC2 then .invalid
  else if byte < 0xE0 then .incomplete ⟨code - 0xC0, 1, 0x80, 0xBF⟩
  else if byte == 0xE0 then .incomplete ⟨0, 2, 0xA0, 0xBF⟩
  else if byte == 0xED then .incomplete ⟨0xD, 2, 0x80, 0x9F⟩
  else if byte < 0xF0 then .incomplete ⟨code - 0xE0, 2, 0x80, 0xBF⟩
  else if byte == 0xF0 then .incomplete ⟨0, 3, 0x90, 0xBF⟩
  else if byte < 0xF4 then .incomplete ⟨code - 0xF0, 3, 0x80, 0xBF⟩
  else if byte == 0xF4 then .incomplete ⟨4, 3, 0x80, 0x8F⟩
  else .invalid

def replacement : Char := '\uFFFD'

/-- Reads one byte where a character may start. -/
def openCharacter (byte : UInt8) : List Char × Option Partial :=
  match opening byte with
  | .complete char => ([char], none)
  | .incomplete start => ([], some start)
  | .invalid => ([replacement], none)

/-- Reads one byte after the bytes of `start`. A byte that does not continue
the character breaks it off and is read as a first byte. -/
def continueCharacter (start : Partial) (byte : UInt8) : List Char × Option Partial :=
  if start.least ≤ byte && byte ≤ start.most then
    let code := start.code * 64 + (byte.toNat - 0x80)
    if start.missing ≤ 1 then ([Char.ofNat code], none)
    else ([], some ⟨code, start.missing - 1, 0x80, 0xBF⟩)
  else
    let (chars, next) := openCharacter byte
    (replacement :: chars, next)

def decodeFrom : Option Partial → List UInt8 → List Char
  | none, [] => []
  | some _, [] => [replacement]
  | none, byte :: rest =>
    let (chars, next) := openCharacter byte
    chars ++ decodeFrom next rest
  | some start, byte :: rest =>
    let (chars, next) := continueCharacter start byte
    chars ++ decodeFrom next rest

/-- The text of `bytes`, with U+FFFD for what is not well formed. -/
def decode (bytes : List UInt8) : List Char :=
  decodeFrom none bytes

/-- The text of `bytes` if all of them are well formed. -/
def decode? (bytes : ByteArray) : Option String :=
  String.fromUTF8? bytes

def encode (text : String) : List UInt8 :=
  text.toUTF8.toList

end NodeAssembly.Text
