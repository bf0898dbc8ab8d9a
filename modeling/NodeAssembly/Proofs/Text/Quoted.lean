import NodeAssembly.Text.Quoted

/-! Quoted text in the characters of a usual keyboard: what one character
becomes between quotes. -/

namespace NodeAssembly.Text

/-- The printable characters of ASCII, and the controls that have short forms. -/
def isTypable (char : Char) : Bool :=
  (0x20 ≤ char.toNat && char.toNat ≤ 0x7E) || char == '\n' || char == '\t' || char == '\r'

/-- A character between quotes: itself if it is harmless there, or else a
backslash and a harmless character. -/
inductive Escaped (char : Char) : List Char → Prop
  | same (noQuote : char ≠ '"') (noBackslash : char ≠ '\\') (inLine : char ≠ '\n')
      (noReturn : char ≠ '\r') : Escaped char [char]
  | short (code : Char) (stands : char ∈ ['"', '\\', '\n', '\t', '\r'])
      (coded : (code, char) ∈ [('"', '"'), ('\\', '\\'), ('n', '\n'), ('t', '\t'), ('r', '\r')]) :
      Escaped char ['\\', code]

theorem escape_escaped {char : Char} (typable : isTypable char) : Escaped char (escape char) := by
  unfold escape
  split
  · exact .short '"' (by decide) (by decide)
  · exact .short '\\' (by decide) (by decide)
  · exact .short 'n' (by decide) (by decide)
  · exact .short 't' (by decide) (by decide)
  · exact .short 'r' (by decide) (by decide)
  · exact absurd typable (by decide)
  next noQuote noBackslash inLine noTab noReturn _ =>
    have printable : isPrintable char := by
      simp only [isTypable, Bool.or_eq_true, beq_iff_eq] at typable
      unfold isPrintable
      rcases typable with ((shown | feed) | tab) | back
      · rw [shown, Bool.true_or]
      · exact absurd feed inLine
      · exact absurd tab noTab
      · exact absurd back noReturn
    rw [if_pos printable]
    exact .same noQuote noBackslash inLine noReturn

end NodeAssembly.Text
