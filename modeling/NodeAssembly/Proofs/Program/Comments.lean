import NodeAssembly.Proofs.Program.Places
import NodeAssembly.Proofs.Source.Comments

/-! Comments and blanks around a line do not matter to a program. -/

namespace NodeAssembly

open NodeAssembly.Text

/-- What is read of a line. -/
def Line.bare (raw : List Char) : List Char :=
  trim (stripComment raw)

/-- The source text with each line cut down to what is read of it. -/
def bareSource (source : String) : String :=
  String.ofList (unlines ((lines source.toList).map Line.bare))

theorem stripComment_stripComment (line : List Char) :
    stripComment (stripComment line) = stripComment line :=
  Quotation.stripComment_of_quiet (Quotation.cut_stripComment .outside line).quiet

theorem Line.bare_bare (raw : List Char) : bare (bare raw) = bare raw := by
  have quiet := Quotation.quiet_trim (Quotation.cut_stripComment .outside raw).quiet
  rw [← stripComment, ← bare] at quiet
  rw [bare, stripComment, Quotation.stripComment_of_quiet quiet, bare, trim_trim]

theorem Line.bare_sublist (raw : List Char) : (bare raw).Sublist raw :=
  ((trim_isPrefix _).sublist.trans (List.dropWhile_sublist isBlank)).trans
    (Quotation.cut_stripComment .outside raw).isPrefix.sublist

theorem lines_bareSource (source : String) :
    lines (bareSource source).toList = (lines source.toList).map Line.bare := by
  rw [bareSource, String.toList_ofList]
  apply lines_unlines_of_ends
  · intro text member inside
    rcases List.mem_map.mp member with ⟨raw, isLine, rfl⟩
    exact unbroken_linesFrom List.not_mem_nil _ raw isLine ((Line.bare_sublist raw).subset inside)
  · intro text member ends
    rcases List.mem_map.mp member with ⟨raw, _, rfl⟩
    exact absurd (getLast?_trim _ _ ends) (by decide)

/-- Both places are on lines with one number. -/
def Place.SameNumber (here there : Place) : Prop :=
  here.1 = there.1

theorem Line.mirrors_bare (texts : List (List Char)) (first : Nat) :
    List.Forall₂ (Line.Mirrors Place.SameNumber) (numberFrom first texts)
      (numberFrom first (texts.map bare)) := by
  induction texts generalizing first with
  | nil => exact .nil
  | cons head _ induction => exact .cons ⟨rfl, (bare_bare head).symm⟩ (induction (first + 1))

/-- The same came of both source texts, up to how the line of an error was
written. -/
structure Parsed.Agrees (first second : Parsed) : Prop where
  registry : first.registry = second.registry
  board : first.board = second.board
  result : (∃ result, first.result = .ok result ∧ second.result = .ok result) ∨
    ∃ error other, first.result = .error error ∧ second.result = .error other ∧
      error.kind = other.kind ∧ error.line = other.line ∧ error.context = other.context

theorem Parsed.Mirrors.agrees {first second : Parsed}
    (mirrors : first.Mirrors Place.SameNumber second) : first.Agrees second := by
  refine ⟨mirrors.registry, mirrors.board, ?_⟩
  rcases mirrors.result with both | ⟨error, other, isError, isOther, same⟩
  · exact .inl both
  · rcases same.places with ⟨here, there, number, isHere, isThere⟩
    refine .inr ⟨error, other, isError, isOther, same.kind, ?_, same.context⟩
    rw [isHere.line, isThere.line, number]

theorem parse_bareSource (registry : PinRegistry) (board : Board) (config : Config)
    (logger : Option Logger) (source : String) :
    (Program.parse registry board config logger source).Agrees
      (Program.parse registry board config logger (bareSource source)) := by
  apply Parsed.Mirrors.agrees
  refine Program.parse_mirrors registry board config logger (fun _ _ same => same) ?_
  rw [Line.ofSource, Line.ofSource, lines_bareSource]
  exact Line.mirrors_bare _ 1

/-- A cut falls outside of all quotes. -/
theorem closed_of_cut {line : List Char} (unbroken : '\n' ∉ line) (isCut : stripComment line ≠ line) :
    ∀ lexeme ∈ Lexeme.scan (stripComment line), lexeme.isUnclosed = false := by
  have cut := Quotation.cut_stripComment .outside line
  rw [← stripComment] at cut
  generalize stripComment line = stripped at cut isCut
  cases cut with
  | uncut quiet => exact absurd rfl isCut
  | cut split isMark quiet ends =>
      refine Lexeme.closed_of_balanced (fun inside => unbroken ?_) ⟨quiet, ends⟩
      rw [split]
      exact List.mem_append_left _ inside

/-- Comments are what scanning would not see as quoted. A text whose tokens can
be scanned is kept, and a comment mark behind it is where the line is cut. No
line is cut inside of quotes, and what is left is not cut again. A program is
made of what is left of its lines, with the blanks around it dropped. -/
theorem comments_outside_quotes :
    (∀ text tokens, Token.scan text = .ok tokens → stripComment text = text ∧
      ∀ mark rest, mark = '#' ∨ mark = ';' → stripComment (text ++ mark :: rest) = text) ∧
    (∀ line, stripComment line <+: line ∧ stripComment (stripComment line) = stripComment line ∧
      ('\n' ∉ line → stripComment line ≠ line →
        ∀ lexeme ∈ Lexeme.scan (stripComment line), lexeme.isUnclosed = false)) ∧
    ∀ registry board config logger source,
      (Program.parse registry board config logger source).Agrees
        (Program.parse registry board config logger (bareSource source)) := by
  refine ⟨?_, ?_, parse_bareSource⟩
  · intro text tokens scanned
    have balanced := Token.balanced_of_scan scanned
    refine ⟨Quotation.stripComment_of_quiet balanced.quiet, ?_⟩
    rintro mark rest (rfl | rfl)
    · exact balanced.stripComment_mark rfl rest
    · exact balanced.stripComment_mark rfl rest
  · intro line
    exact ⟨(Quotation.cut_stripComment .outside line).isPrefix, stripComment_stripComment line,
      closed_of_cut⟩

/-- Quotes of either kind, escaped and inside of each other, with comment marks
in and behind them. -/
theorem comments_outside_quotes_mixed :
    let text := "mov \"a;\\\"'#\" '\\';\"' ".toList
    let scanned := Token.scan text
    scanned = .ok [.word "mov", .str "a;\"'#", .str "';\""] ∧
      stripComment text = text ∧ stripComment (text ++ '#' :: "\"; '".toList) = text ∧
      (∀ lexeme ∈ Lexeme.scan (stripComment (text ++ '#' :: "\"; '".toList)),
        lexeme.isUnclosed = false) ∧
      bareSource "  mov 1 acc # one\n\n x ; \r\n" = "mov 1 acc\n\nx\n" := by
  intro text scanned
  have isScanned : scanned = .ok [.word "mov", .str "a;\"'#", .str "';\""] := by decide +kernel
  rcases comments_outside_quotes with ⟨kept, cut, _⟩
  rcases kept text _ isScanned with ⟨whole, behind⟩
  refine ⟨isScanned, whole, behind '#' _ (.inl rfl), ?_, by decide +kernel⟩
  refine (cut (text ++ '#' :: "\"; '".toList)).2.2 (by decide) ?_
  rw [behind '#' _ (.inl rfl)]
  decide

end NodeAssembly
