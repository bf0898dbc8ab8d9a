/-! Blank characters and trimming. Blank means the `White_Space` property, so
a no-break space and a line separator are blank, and a zero-width space is
not. -/

namespace NodeAssembly.Text

/-- The code points that have the `White_Space` property. -/
def isBlankCode (code : Nat) : Bool :=
  (9 ≤ code && code ≤ 13) || code == 0x20 || code == 0x85 || code == 0xA0 ||
    code == 0x1680 || (0x2000 ≤ code && code ≤ 0x200A) || code == 0x2028 ||
    code == 0x2029 || code == 0x202F || code == 0x205F || code == 0x3000

def isBlank (char : Char) : Bool :=
  isBlankCode char.toNat

def trimStart (text : List Char) : List Char :=
  text.dropWhile isBlank

def trimEnd (text : List Char) : List Char :=
  (text.reverse.dropWhile isBlank).reverse

def trim (text : List Char) : List Char :=
  trimEnd (trimStart text)

/-- Whether nothing is left of the text after trimming. -/
def isAllBlank (text : List Char) : Bool :=
  text.all isBlank

theorem trimStart_eq_nil_iff (text : List Char) :
    trimStart text = [] ↔ isAllBlank text = true := by
  induction text with
  | nil => simp [trimStart, isAllBlank]
  | cons head tail induction =>
    by_cases blank : isBlank head = true
    · have skipped : trimStart (head :: tail) = trimStart tail := by
        simp [trimStart, blank]
      rw [skipped, induction]
      simp [isAllBlank, blank]
    · simp [trimStart, isAllBlank, blank]

end NodeAssembly.Text
