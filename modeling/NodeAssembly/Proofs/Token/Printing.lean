import NodeAssembly.Proofs.Token.Spelling

/-! Printing tokens and scanning them again. Integers, names, signs and texts in
the characters of a usual keyboard are printed as they are read. Whatever
separators stand between them, the printed tokens are scanned as themselves: no
two of them merge, and none falls apart. -/

namespace NodeAssembly

open NodeAssembly.Text

namespace Token

/-- A token whose text is read as that token. Fractions are left out, since one
that is whole is printed as an integer. -/
def isPlain : Token → Bool
  | .int _ => true
  | .float _ => false
  | .str text => text.toList.all isTypable
  | .register name => isName name.toList
  | .word name => isName name.toList
  | .positive => true
  | .negative => true

theorem spells_text {token : Token} (plain : token.isPlain) : token.Spells token.text.toList := by
  cases token with
  | int number =>
      rw [text, integer, String.toList_ofList]
      exact spells_int number
  | float number => cases plain
  | str content =>
      rw [text, quoted, String.toList_ofList]
      exact spells_str fun char member => List.all_eq_true.mp plain char member
  | register name =>
      rw [text, String.toList_append]
      exact spells_register plain
  | word name => exact spells_word plain
  | positive => exact spells_positive
  | negative => exact spells_negative

theorem forall_spells_text {tokens : List Token} (plain : ∀ token ∈ tokens, token.isPlain) :
    List.Forall₂ Spells tokens (tokens.map (·.text.toList)) := by
  rw [List.forall₂_map_right_iff, List.forall₂_same]
  exact fun token member => spells_text (plain token member)

/-- What stands between the quotes of a printed text. -/
theorem text_str (content : String) :
    (str content).text.toList = '"' :: (content.toList.flatMap escape ++ ['"']) := by
  rw [text, quoted, String.toList_ofList]
  rfl

/-- Printed tokens are scanned as themselves, each from its own text, if
separators stand between them, be it one blank or any number of them. What
stands between the quotes of a printed text is read as that text. -/
theorem printed_tokens_scanned {tokens : List Token} (plain : ∀ token ∈ tokens, token.isPlain) :
    (∀ joined, Lexeme.Joined (tokens.map (·.text.toList)) joined →
      Lexeme.scan joined = tokens.map (fun token => ⟨token.text.toList, some token⟩) ∧
      scan joined = .ok tokens) ∧
    scan ([' '].intercalate (tokens.map (·.text.toList))) = .ok tokens ∧
    ∀ content : String, (∀ char ∈ content.toList, isTypable char) →
      ∃ escaped, (str content).text.toList = '"' :: (escaped ++ ['"']) ∧
        Lexeme.unescape escaped = content.toList := by
  have spelled := forall_spells_text plain
  refine ⟨fun joined isJoined => ⟨?_, scan_of_joined spelled isJoined⟩,
    scan_intercalate spelled, fun content typable => ?_⟩
  · rw [Lexeme.scan_joined spelled isJoined, List.zipWith_map_right, List.zipWith_self]
  · exact ⟨_, text_str content, unescape_escape typable⟩

/-- A sign before a number that has one, quotes in quotes, and a separator of
each kind. -/
theorem printed_tokens_scanned_signs :
    let tokens := [word "teq", negative, int (-2147483648), register "x_1", positive,
      str "it's \"\\n\"\t#\n", int 7]
    let line := "teq - ,-2147483648\t\t$x_1\r\n+,\"it's \\\"\\\\n\\\"\\t#\\n\"\x0c7".toList
    (∀ token ∈ tokens, token.isPlain) ∧ Lexeme.Joined (tokens.map (·.text.toList)) line ∧
      scan line = .ok tokens := by
  intro tokens line
  have plain : ∀ token ∈ tokens, token.isPlain := by decide +kernel
  have joined : Lexeme.Joined (tokens.map (·.text.toList)) line := by
    refine .cons _ [' '] (by decide) (by simp [Lexeme.isSeparator]) ?_
    refine .cons _ [' ', ','] (by decide) (by simp [Lexeme.isSeparator]) ?_
    refine .cons _ ['\t', '\t'] (by decide) (by simp [Lexeme.isSeparator]) ?_
    refine .cons _ ['\r', '\n'] (by decide) (by simp [Lexeme.isSeparator]) ?_
    refine .cons _ [','] (by decide) (by simp [Lexeme.isSeparator]) ?_
    refine .cons _ ['\x0c'] (by decide) (by simp [Lexeme.isSeparator]) ?_
    exact .single _
  exact ⟨plain, joined, ((printed_tokens_scanned plain).1 line joined).2⟩

end Token

end NodeAssembly
