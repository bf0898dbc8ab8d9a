import Mathlib.Data.List.Forall2
import NodeAssembly.Proofs.Source.Reading

/-! Where in a source text its statements stand. Reading looks at what is
written on the lines and never at where they are, so lines that say the same at
other places are read as the same statements there. -/

namespace NodeAssembly

open NodeAssembly.Text

/-- The number of a line, and the line as it was written. -/
abbrev Place := Nat × List Char

def Line.place (line : Line) : Place :=
  (line.number, line.raw)

/-- The lines say the same at related places. -/
structure Line.Mirrors (near : Place → Place → Prop) (first second : Line) : Prop where
  near : near first.place second.place
  text : first.text = second.text

mutual

/-- The statements differ only in their places, which are related. -/
inductive Statement.Mirrors (near : Place → Place → Prop) : Statement → Statement → Prop
  | instruction {line other : Line} (here : near line.place other.place) (tokens : List Token)
      {branches others : Branches} (below : Branches.Mirrors near branches others) :
      Statement.Mirrors near (.instruction line tokens branches) (.instruction other tokens others)
  | illegible {line other : Line} (here : near line.place other.place) (slice : String) :
      Statement.Mirrors near (.illegible line slice) (.illegible other slice)
  | stray {line other : Line} (here : near line.place other.place) :
      Statement.Mirrors near (.stray line) (.stray other)

inductive Branches.Mirrors (near : Place → Place → Prop) : Branches → Branches → Prop
  | nil : Branches.Mirrors near .nil .nil
  | cons (sign : Sign) {statement other : Statement} (head : Statement.Mirrors near statement other)
      {rest others : Branches} (tail : Branches.Mirrors near rest others) :
      Branches.Mirrors near (.cons sign statement rest) (.cons sign other others)

end

inductive Body.Mirrors (near : Place → Place → Prop) : Body → Body → Prop
  | blank : Body.Mirrors near .blank .blank
  | malformed (construct : Construct) : Body.Mirrors near (.malformed construct) (.malformed construct)
  | stray : Body.Mirrors near .stray .stray
  | entry (once : Bool) {statement other : Statement} (mirrors : statement.Mirrors near other) :
      Body.Mirrors near (.entry once statement) (.entry once other)

structure Item.Mirrors (near : Place → Place → Prop) (first second : Item) : Prop where
  line : near first.line.place second.line.place
  declarations : first.declarations = second.declarations
  body : first.body.Mirrors near second.body

variable {near : Place → Place → Prop}

/-! ## Lines -/

namespace Line

variable {line other : Line} {lines others : List Line}

theorem Mirrors.sign?_eq (mirrors : line.Mirrors near other) : line.sign? = other.sign? := by
  rw [sign?, sign?, mirrors.text]

theorem Mirrors.unsigned (mirrors : line.Mirrors near other) :
    line.unsigned.Mirrors near other.unsigned :=
  ⟨mirrors.near, congrArg (fun text : List Char => trimStart text.tail) mirrors.text⟩

theorem mirrors_unsigned (mirrors : List.Forall₂ (Mirrors near) lines others) :
    List.Forall₂ (Mirrors near) (lines.map Line.unsigned) (others.map Line.unsigned) := by
  induction mirrors with
  | nil => exact .nil
  | cons head _ induction => exact .cons head.unsigned induction

/-- Lines that say the same have the same signs. -/
theorem mirrors_takeWhile (mirrors : List.Forall₂ (Mirrors near) lines others) (sign : Sign) :
    List.Forall₂ (Mirrors near) (lines.takeWhile fun line => line.sign? == some sign)
      (others.takeWhile fun line => line.sign? == some sign) := by
  induction mirrors with
  | nil => exact .nil
  | @cons line other lines others head _ induction =>
      rw [List.takeWhile_cons, List.takeWhile_cons, head.sign?_eq]
      split
      · exact .cons head induction
      · exact .nil

end Line

namespace Runs

/-- The runs of lines that say the same. -/
structure Mirrors (near : Place → Place → Prop) (runs other : Runs) : Prop where
  sign : runs.sign = other.sign
  first : List.Forall₂ (Line.Mirrors near) runs.first other.first
  second : List.Forall₂ (Line.Mirrors near) runs.second other.second

theorem Mirrors.length_eq {runs other : Runs} (mirrors : runs.Mirrors near other) :
    runs.length = other.length := by
  rw [length, length, mirrors.first.length_eq, mirrors.second.length_eq]

theorem mirrors_empty : Mirrors near .empty .empty :=
  ⟨rfl, .nil, .nil⟩

theorem mirrors_ofLines {lines others : List Line}
    (mirrors : List.Forall₂ (Line.Mirrors near) lines others) :
    (ofLines lines).Mirrors near (ofLines others) := by
  have starts : lines.head?.bind Line.sign? = others.head?.bind Line.sign? := by
    cases mirrors with
    | nil => rfl
    | cons head _ => exact head.sign?_eq
  unfold ofLines
  rw [starts]
  cases others.head?.bind Line.sign? with
  | none => exact mirrors_empty
  | some sign =>
      have first := Line.mirrors_takeWhile mirrors sign
      refine ⟨rfl, first, ?_⟩
      simp only [first.length_eq]
      exact Line.mirrors_takeWhile (List.forall₂_drop _ mirrors) sign.opposite

theorem mirrors_ownedRuns (tokens : Except String (List Token)) {lines others : List Line}
    (mirrors : List.Forall₂ (Line.Mirrors near) lines others) :
    (ownedRuns tokens lines).Mirrors near (ownedRuns tokens others) := by
  unfold ownedRuns
  split
  · exact mirrors_ofLines mirrors
  · exact mirrors_empty

end Runs

/-! ## Statements -/

theorem Branches.mirrors_prepend (sign : Sign) {statements others : List Statement}
    (mirrors : List.Forall₂ (Statement.Mirrors near) statements others) {rest further : Branches}
    (tail : rest.Mirrors near further) :
    (prepend sign statements rest).Mirrors near (prepend sign others further) := by
  induction mirrors with
  | nil => exact tail
  | cons head _ induction => exact .cons sign head induction

theorem mirrors_splitInline {line other : Line} (here : near line.place other.place)
    (tokens : List Token) :
    (splitInline line tokens).1 = (splitInline other tokens).1 ∧
      (splitInline line tokens).2.Mirrors near (splitInline other tokens).2 := by
  induction tokens with
  | nil => exact ⟨rfl, .nil⟩
  | cons token rest induction =>
      rcases induction with ⟨group, branches⟩
      simp only [splitInline]
      cases token.sign? with
      | none => exact ⟨congrArg (List.cons token) group, branches⟩
      | some sign =>
          rw [group]
          refine ⟨rfl, ?_⟩
          change Branches.Mirrors near (if _ then _ else _) (if _ then _ else _)
          split
          · exact branches
          · exact .cons sign (.instruction here _ .nil) branches

namespace Statement

theorem mirrors_ofTokens {line other : Line} (here : near line.place other.place)
    (tokens : Except String (List Token)) {blocks others : Branches}
    (below : blocks.Mirrors near others) :
    (ofTokens line tokens blocks).Mirrors near (ofTokens other tokens others) := by
  cases tokens with
  | error slice => exact .illegible here slice
  | ok tokens =>
      rcases mirrors_splitInline here tokens with ⟨group, branches⟩
      simp only [ofTokens]
      split
      · rw [group]
        exact .instruction here _ branches
      · exact .instruction here tokens below

/-- A line is read as the same statement elsewhere if the lines of its blocks
are. -/
theorem mirrors_ofLine {line other : Line} (mirrors : line.Mirrors near other)
    {lines others : List Line} (below : List.Forall₂ (Line.Mirrors near) lines others)
    (blocks : (ownedRuns (Token.scan line.text) lines).blocks.Mirrors near
      (ownedRuns (Token.scan line.text) others).blocks) :
    (ofLine line lines).1.Mirrors near (ofLine other others).1 ∧
      (ofLine line lines).2 = (ofLine other others).2 := by
  have runs := Runs.mirrors_ownedRuns (Token.scan line.text) below
  simp only [ofLine, ← mirrors.text]
  exact ⟨mirrors_ofTokens mirrors.near _ blocks, runs.length_eq⟩

end Statement

/-- Wherever else the lines say the same, they are read as the same statements. -/
def Line.ReadAlike (near : Place → Place → Prop) (lines : List Line) : Prop :=
  ∀ others, List.Forall₂ (Line.Mirrors near) lines others →
    List.Forall₂ (Statement.Mirrors near) (gather lines) (gather others)

theorem Runs.Mirrors.blocks {runs other : Runs} (mirrors : runs.Mirrors near other)
    (first : Line.ReadAlike near (runs.first.map Line.unsigned))
    (second : Line.ReadAlike near (runs.second.map Line.unsigned)) :
    runs.blocks.Mirrors near other.blocks := by
  unfold Runs.blocks
  rw [← mirrors.sign]
  apply Branches.mirrors_prepend _ (first _ (Line.mirrors_unsigned mirrors.first))
  exact Branches.mirrors_prepend _ (second _ (Line.mirrors_unsigned mirrors.second)) .nil

theorem Line.readAlike (lines : List Line) : ReadAlike near lines := by
  induction lines using gather.induct with
  | case1 =>
      rintro _ ⟨⟩
      rw [gather]
      exact .nil
  | case2 line rest empty induction =>
      rintro _ (_ | ⟨head, tail⟩)
      rw [gather, if_pos empty, gather, if_pos (head.text ▸ empty)]
      exact induction _ tail
  | case3 line rest filled signed induction =>
      rintro _ (_ | ⟨head, tail⟩)
      rw [gather, if_neg filled, if_pos signed, gather, if_neg (head.text ▸ filled),
        if_pos (head.sign?_eq ▸ signed)]
      exact .cons (.stray head.near) (induction _ tail)
  | case4 line rest filled unsigned tokens runs first second induction =>
      rintro _ (_ | @⟨_, other, _, others, head, tail⟩)
      have isFilled : line.text ≠ [] := by simpa using filled
      have isUnsigned : line.sign? = none := by simpa using unsigned
      rw [gather_cons isFilled isUnsigned,
        gather_cons (head.text ▸ isFilled) (head.sign?_eq ▸ isUnsigned)]
      have owned := Runs.mirrors_ownedRuns (Token.scan line.text) tail
      rcases Statement.mirrors_ofLine head tail (owned.blocks first second) with
        ⟨statement, count⟩
      rw [← count]
      exact .cons statement (induction _ (List.forall₂_drop _ tail))

/-! ## Items -/

namespace Item

theorem mirrors_readBody {line other : Line} (mirrors : line.Mirrors near other)
    {lines others : List Line} (below : List.Forall₂ (Line.Mirrors near) lines others) :
    (readBody line lines).1.Mirrors near (readBody other others).1 ∧
      (readBody line lines).2 = (readBody other others).2 := by
  have statements {first second : Line} (same : first.Mirrors near second) :=
    Statement.mirrors_ofLine same below
      ((Runs.mirrors_ownedRuns (Token.scan first.text) below).blocks (Line.readAlike _)
        (Line.readAlike _))
  unfold readBody
  rw [← mirrors.sign?_eq, ← mirrors.text]
  split
  · exact ⟨.stray, rfl⟩
  · exact ⟨.blank, rfl⟩
  next text _ _ =>
    have marked : Line.Mirrors near { line with text := trimStart text }
        { other with text := trimStart text } := ⟨mirrors.near, rfl⟩
    rcases statements marked with ⟨statement, count⟩
    exact ⟨.entry true statement, count⟩
  next =>
    rcases statements mirrors with ⟨statement, count⟩
    exact ⟨.entry false statement, count⟩

theorem mirrors_ofLine {line other : Line} (mirrors : line.Mirrors near other)
    {lines others : List Line} (below : List.Forall₂ (Line.Mirrors near) lines others) :
    (ofLine line lines).1.Mirrors near (ofLine other others).1 ∧
      (ofLine line lines).2 = (ofLine other others).2 := by
  simp only [ofLine, ← mirrors.text]
  split
  next construct _ => exact ⟨⟨mirrors.near, rfl, .malformed construct⟩, rfl⟩
  next rest _ =>
    have remaining : Line.Mirrors near { line with text := rest } { other with text := rest } :=
      ⟨mirrors.near, rfl⟩
    rcases mirrors_readBody remaining below with ⟨body, count⟩
    exact ⟨⟨mirrors.near, rfl, body⟩, count⟩

theorem mirrors_ofLines {lines others : List Line}
    (mirrors : List.Forall₂ (Line.Mirrors near) lines others) :
    List.Forall₂ (Mirrors near) (ofLines lines) (ofLines others) := by
  induction lines using ofLines.induct generalizing others with
  | case1 =>
      cases mirrors
      rw [ofLines]
      exact .nil
  | case2 line rest item count isItem induction =>
      cases mirrors with
      | @cons _ other _ others head tail =>
          rcases mirrors_ofLine head tail with ⟨same, taken⟩
          rw [isItem] at same taken
          rw [ofLines, isItem, ofLines]
          simp only [← taken]
          exact .cons same (induction (List.forall₂_drop _ tail))

end Item

end NodeAssembly
