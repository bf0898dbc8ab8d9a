import NodeAssembly.Text.Printable

/-! Quoted text. A string is written between double quotes; the double quote
and the backslash are escaped, the common controls have short forms, and every
other character that cannot be shown is written by its code in hexadecimal. -/

namespace NodeAssembly.Text

/-- The code of a character in lower-case hexadecimal. -/
def hexCode (char : Char) : List Char :=
  Nat.toDigits 16 char.toNat

/-- One character as it stands between double quotes. -/
def escape (char : Char) : List Char :=
  match char with
  | '"' => ['\\', '"']
  | '\\' => ['\\', '\\']
  | '\n' => ['\\', 'n']
  | '\t' => ['\\', 't']
  | '\r' => ['\\', 'r']
  | '\x00' => ['\\', '0']
  | char => if isPrintable char then [char] else ['\\', 'u', '\x7b'] ++ hexCode char ++ ['\x7d']

def quote (text : List Char) : List Char :=
  '"' :: text.flatMap escape ++ ['"']

def quoted (text : String) : String :=
  String.ofList (quote text.toList)

end NodeAssembly.Text
