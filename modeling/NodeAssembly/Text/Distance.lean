/-! How far two words are apart. The distance counts single characters put in,
taken out or exchanged. Case is ignored by comparing lower-case forms. -/

namespace NodeAssembly.Text

/-- The lower-case form of a character as far as it can meet an ASCII letter:
beside the ASCII capitals these are the dotted capital I, which becomes two
characters, and the Kelvin sign. No other character has an ASCII letter in its
lower-case form. -/
def lower (char : Char) : List Char :=
  if 'A' ≤ char && char ≤ 'Z' then [Char.ofNat (char.toNat + 32)]
  else if char == '\u0130' then ['i', '\u0307']
  else if char == '\u212A' then ['k']
  else [char]

def lowerCase (word : List Char) : List Char :=
  word.flatMap lower

/-- The row of distances that follows `above` for one more character of the
first word. `left` is the distance to the left of the cell being filled in, and
the head of `above` the distance above that. -/
def distanceRow (char : Char) (left : Nat) : List Nat → List Char → List Nat
  | corner :: above :: rest, other :: word =>
    let cell := min (min (left + 1) (above + 1)) (corner + if char == other then 0 else 1)
    cell :: distanceRow char cell (above :: rest) word
  | _, _ => []

def distanceRows (row : List Nat) : List Char → List Char → List Nat
  | [], _ => row
  | char :: rest, word =>
    let first := row.headD 0 + 1
    distanceRows (first :: distanceRow char first row word) rest word

/-- The least number of single-character edits between two words. -/
def distance (first second : List Char) : Nat :=
  (distanceRows (List.range (second.length + 1)) first second).getLastD 0

end NodeAssembly.Text
