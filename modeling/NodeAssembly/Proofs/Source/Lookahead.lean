import NodeAssembly.Proofs.Source.Depth
import NodeAssembly.Proofs.Source.Places

/-! How far ahead a source text is read. The blocks of a test are found by looking
at the lines below it, so further lines may add to the last statement of a text.
They add only statements that stand on the further lines themselves. -/

namespace NodeAssembly

/-- Both are one place, which is behind the line with the number `last`. -/
def Place.Beyond (last : Nat) (here there : Place) : Prop :=
  here = there ∧ last < here.1

/-- The second list goes on from the end of the first: with what was the last
item there, perhaps extended, and with items that are beyond. -/
inductive Prolongs {α : Type} (beyond : α → Prop) (continues : α → α → Prop) :
    List α → List α → Prop
  | done {further : List α} (isBeyond : ∀ item ∈ further, beyond item) :
      Prolongs beyond continues [] further
  | cons (item : α) {items others : List α} (rest : Prolongs beyond continues items others) :
      Prolongs beyond continues (item :: items) (item :: others)
  | last {item other : α} (extended : continues item other) {further : List α}
      (isBeyond : ∀ item ∈ further, beyond item) :
      Prolongs beyond continues [item] (other :: further)

mutual

/-- The second statement is what becomes of the first when more lines follow
behind the line with the number `last`. -/
inductive Statement.Continues (last : Nat) : Statement → Statement → Prop
  | same (statement : Statement) : Statement.Continues last statement statement
  | instruction (line : Line) (tokens : List Token) {branches others : Branches}
      (below : Branches.Continues last branches others) :
      Statement.Continues last (.instruction line tokens branches) (.instruction line tokens others)

inductive Branches.Continues (last : Nat) : Branches → Branches → Prop
  | done {further : Branches} (isBeyond : further.Mirrors (Place.Beyond last) further) :
      Branches.Continues last .nil further
  | cons (sign : Sign) (statement : Statement) {rest others : Branches}
      (tail : Branches.Continues last rest others) :
      Branches.Continues last (.cons sign statement rest) (.cons sign statement others)
  | last (sign : Sign) {statement other : Statement}
      (extended : Statement.Continues last statement other) {further : Branches}
      (isBeyond : further.Mirrors (Place.Beyond last) further) :
      Branches.Continues last (.cons sign statement .nil) (.cons sign other further)

end

variable {last : Nat}

/-- The statement stands behind the line with the number `last`. -/
def Statement.IsBeyond (last : Nat) (statement : Statement) : Prop :=
  statement.Mirrors (Place.Beyond last) statement

/-- All the lines are behind the one with the number `last`. -/
def Line.AreBeyond (last : Nat) (lines : List Line) : Prop :=
  ∀ line ∈ lines, last < line.number

namespace Line

theorem AreBeyond.mirrors {lines : List Line} (beyond : AreBeyond last lines) :
    List.Forall₂ (Line.Mirrors (Place.Beyond last)) lines lines := by
  rw [List.forall₂_same]
  exact fun line member => ⟨⟨rfl, beyond line member⟩, rfl⟩

theorem AreBeyond.unsigned {lines : List Line} (beyond : AreBeyond last lines) :
    AreBeyond last (lines.map Line.unsigned) := by
  intro line member
  rcases List.mem_map.mp member with ⟨signed, isSigned, rfl⟩
  exact beyond signed isSigned

theorem AreBeyond.gather {lines : List Line} (beyond : AreBeyond last lines) :
    ∀ statement ∈ NodeAssembly.gather lines, statement.IsBeyond last := by
  have alike := Line.readAlike lines lines beyond.mirrors
  rwa [List.forall₂_same] at alike

theorem AreBeyond.sublist {lines others : List Line} (beyond : AreBeyond last lines)
    (sublist : others.Sublist lines) : AreBeyond last others :=
  fun line member => beyond line (sublist.subset member)

end Line

/-! ## Blocks -/

namespace Branches

theorem isBeyond_prepend (sign : Sign) {statements : List Statement}
    (beyond : ∀ statement ∈ statements, statement.IsBeyond last) {rest : Branches}
    (tail : rest.Mirrors (Place.Beyond last) rest) :
    (prepend sign statements rest).Mirrors (Place.Beyond last) (prepend sign statements rest) :=
  mirrors_prepend sign (List.forall₂_same.mpr beyond) tail

theorem Continues.prepend (sign : Sign) (statements : List Statement) {rest others : Branches}
    (tail : rest.Continues last others) :
    (prepend sign statements rest).Continues last (prepend sign statements others) := by
  induction statements with
  | nil => exact tail
  | cons head _ induction => exact .cons sign head induction

theorem continues_prepend (sign : Sign) {statements others : List Statement}
    (prolongs : Prolongs (Statement.IsBeyond last) (Statement.Continues last) statements others)
    {further : Branches} (beyond : further.Mirrors (Place.Beyond last) further) :
    (prepend sign statements .nil).Continues last (prepend sign others further) := by
  induction prolongs with
  | done isBeyond => exact .done (isBeyond_prepend sign isBeyond beyond)
  | cons item _ induction => exact .cons sign item induction
  | last extended isBeyond => exact .last sign extended (isBeyond_prepend sign isBeyond beyond)

end Branches

theorem takeWhile_append_cases {α : Type} (condition : α → Bool) (items further : List α) :
    (items.takeWhile condition = items ∧
      (items ++ further).takeWhile condition = items ++ further.takeWhile condition) ∨
    ((items.takeWhile condition).length < items.length ∧
      (items ++ further).takeWhile condition = items.takeWhile condition) := by
  rw [List.takeWhile_append]
  split
  next all => exact .inl ⟨(List.takeWhile_prefix condition).eq_of_length all, rfl⟩
  next some =>
    exact .inr ⟨Nat.lt_of_le_of_ne (List.takeWhile_prefix condition).length_le some, rfl⟩

namespace Runs

/-- What becomes of the runs at the start of `lines` when `further` lines follow. -/
inductive Continues (lines further : List Line) (runs : Runs) : Runs → Prop
  /-- The runs end within the lines. -/
  | settled (rest : (lines ++ further).drop runs.length = lines.drop runs.length ++ further) :
      Continues lines further runs runs
  /-- The runs take all lines, and the first of them may go on. -/
  | first {sign : Sign} {more second : List Line} (same : runs.first = [] ∨ sign = runs.sign)
      (noSecond : runs.second = []) (all : lines.length ≤ runs.length)
      (isMore : more.Sublist further) (isSecond : second.Sublist further) :
      Continues lines further runs ⟨sign, runs.first ++ more, second⟩
  /-- The runs take all lines, and the second of them may go on. -/
  | second {more : List Line} (all : lines.length ≤ runs.length) (isMore : more.Sublist further) :
      Continues lines further runs ⟨runs.sign, runs.first, runs.second ++ more⟩

theorem first_sublist (lines : List Line) : (ofLines lines).first.Sublist lines := by
  unfold ofLines
  split
  · exact List.nil_sublist lines
  · exact List.takeWhile_sublist _

theorem second_sublist (lines : List Line) : (ofLines lines).second.Sublist lines := by
  unfold ofLines
  split
  · exact List.nil_sublist lines
  · exact (List.takeWhile_sublist _).trans (List.drop_sublist _ _)

theorem continues_takeWhile (sign : Sign) (lines further : List Line) :
    let own : Line → Bool := fun line => line.sign? == some sign
    let other : Line → Bool := fun line => line.sign? == some sign.opposite
    let runs (lines : List Line) : Runs :=
      ⟨sign, lines.takeWhile own, (lines.drop (lines.takeWhile own).length).takeWhile other⟩
    Continues lines further (runs lines) (runs (lines ++ further)) := by
  intro own other runs
  rcases takeWhile_append_cases own lines further with ⟨all, goesOn⟩ | ⟨shorter, same⟩
  · have noSecond : (runs lines).second = [] := by
      simp only [runs, all, List.drop_length, List.takeWhile_nil]
    have isSecond : (runs (lines ++ further)).second.Sublist further := by
      simp only [runs, goesOn, List.length_append, List.drop_append, Nat.add_sub_cancel_left,
        List.drop_eq_nil_of_le (Nat.le_add_right _ _), List.nil_append]
      exact (List.takeWhile_sublist other).trans (List.drop_sublist _ _)
    have isFirst : (runs (lines ++ further)).first = (runs lines).first ++ further.takeWhile own := by
      simp only [runs, goesOn, all]
    have taken : lines.length ≤ (runs lines).length := by
      simp only [runs, length, all]
      exact Nat.le_add_right _ _
    have whole := Continues.first (.inr rfl) noSecond taken (List.takeWhile_sublist own) isSecond
    rwa [← isFirst] at whole
  · have below : (lines ++ further).drop (lines.takeWhile own).length =
        lines.drop (lines.takeWhile own).length ++ further :=
      List.drop_append_of_le_length (Nat.le_of_lt shorter)
    have split := List.length_drop (i := (lines.takeWhile own).length) (l := lines)
    rcases takeWhile_append_cases other (lines.drop (lines.takeWhile own).length) further with
      ⟨all, goesOn⟩ | ⟨earlier, alike⟩
    · have taken : lines.length ≤ (runs lines).length := by
        simp only [runs, length, all]
        omega
      have goesOnHere : runs (lines ++ further) =
          ⟨sign, (runs lines).first, (runs lines).second ++ further.takeWhile other⟩ := by
        simp only [runs, same, below, goesOn, all]
      rw [goesOnHere]
      exact .second taken (List.takeWhile_sublist other)
    · have unchanged : runs (lines ++ further) = runs lines := by
        simp only [runs, same, below, alike]
      rw [unchanged]
      refine .settled (List.drop_append_of_le_length ?_)
      simp only [runs, length]
      omega

theorem continues_ofLines (lines further : List Line) :
    Continues lines further (ofLines lines) (ofLines (lines ++ further)) := by
  cases lines with
  | nil =>
      exact .first (.inl rfl) rfl (Nat.zero_le _) (first_sublist further) (second_sublist further)
  | cons head tail =>
      generalize isLines : head :: tail = lines
      have starts : (lines ++ further).head?.bind Line.sign? = lines.head?.bind Line.sign? := by
        rw [← isLines]
        rfl
      cases isSign : lines.head?.bind Line.sign? with
      | none =>
          rw [ofLines, ofLines, starts, isSign]
          exact .settled rfl
      | some sign =>
          rw [ofLines, ofLines, starts, isSign]
          exact continues_takeWhile sign lines further

theorem continues_ownedRuns (tokens : Except String (List Token)) (lines further : List Line) :
    Continues lines further (ownedRuns tokens lines) (ownedRuns tokens (lines ++ further)) := by
  unfold ownedRuns
  split
  · exact continues_ofLines lines further
  · exact .settled rfl

end Runs

/-! ## Statements -/

/-- What is read at the start of `lines`, with the number of lines taken, and what
is read there when `further` lines follow: the same, or something that goes on to
the further lines after taking all the others. -/
inductive Carries {α : Type} (continues : α → α → Prop) (lines further : List Line) :
    α × Nat → α × Nat → Prop
  | settled (result : α) {count : Nat}
      (rest : (lines ++ further).drop count = lines.drop count ++ further) :
      Carries continues lines further (result, count) (result, count)
  | onward {result other : α} (extended : continues result other) {count total : Nat}
      (all : lines.length ≤ count) (more : count ≤ total) :
      Carries continues lines further (result, count) (other, total)

namespace Carries

variable {α β : Type} {continues : α → α → Prop} {lines further : List Line}

theorem map {extended : β → β → Prop} {taken total : α × Nat}
    (carries : Carries continues lines further taken total) (form : α → β)
    (each : ∀ {result other}, continues result other → extended (form result) (form other)) :
    Carries extended lines further (form taken.1, taken.2) (form total.1, total.2) := by
  cases carries with
  | settled result rest => exact .settled (form result) rest
  | onward extended all more => exact .onward (each extended) all more

/-- The list of what is read goes on after its first item. -/
theorem prolongs_cons {beyond : α → Prop} {read : List Line → List α} {taken total : α × Nat}
    (carries : Carries continues lines further taken total) (empty : read [] = [])
    (rest : Prolongs beyond continues (read (lines.drop taken.2))
      (read (lines.drop taken.2 ++ further)))
    (areBeyond : ∀ others, others.Sublist further → ∀ item ∈ read others, beyond item) :
    Prolongs beyond continues (taken.1 :: read (lines.drop taken.2))
      (total.1 :: read ((lines ++ further).drop total.2)) := by
  cases carries with
  | settled result split =>
      rw [split]
      exact .cons result rest
  | @onward result other extended count total all more =>
      rw [List.drop_eq_nil_of_le all, empty]
      refine .last extended (areBeyond _ ?_)
      rw [List.drop_append, List.drop_eq_nil_of_le (all.trans more), List.nil_append]
      exact List.drop_sublist _ _

end Carries

/-- When lines behind `last` follow, the statements of the lines are the same,
except that the last of them may go on. -/
def Line.ReadOn (last : Nat) (lines : List Line) : Prop :=
  ∀ further, AreBeyond last further →
    Prolongs (Statement.IsBeyond last) (Statement.Continues last) (gather lines)
      (gather (lines ++ further))

theorem Runs.Continues.carries {lines further : List Line} {runs others : Runs}
    (continues : Runs.Continues lines further runs others) (beyond : Line.AreBeyond last further)
    (first : Line.ReadOn last (runs.first.map Line.unsigned))
    (second : Line.ReadOn last (runs.second.map Line.unsigned)) :
    Carries (Branches.Continues last) lines further (runs.blocks, runs.length)
      (others.blocks, others.length) := by
  cases continues with
  | settled rest => exact .settled _ rest
  | @first sign more others same noSecond all isMore isSecond =>
      have longer : runs.length ≤ Runs.length ⟨sign, runs.first ++ more, others⟩ := by
        simp only [Runs.length, noSecond, List.length_append, List.length_nil]
        omega
      refine .onward ?_ all longer
      have beyondSecond := Branches.isBeyond_prepend sign.opposite
        (beyond.sublist isSecond).unsigned.gather .nil
      have nothing : gather (runs.second.map Line.unsigned) = [] := by
        rw [noSecond, List.map_nil, gather]
      have goesOn := first (more.map Line.unsigned) (beyond.sublist isMore).unsigned
      rw [← List.map_append] at goesOn
      rw [Runs.blocks, nothing]
      -- The sign of runs without lines says nothing, and there are no blocks then.
      rcases same with noFirst | rfl
      · rw [noFirst, List.map_nil, gather] at goesOn ⊢
        exact Branches.continues_prepend sign goesOn beyondSecond
      · exact Branches.continues_prepend _ goesOn beyondSecond
  | @second more all isMore =>
      have longer : runs.length ≤ Runs.length ⟨runs.sign, runs.first, runs.second ++ more⟩ := by
        simp only [Runs.length, List.length_append]
        omega
      refine .onward ?_ all longer
      have goesOn := second (more.map Line.unsigned) (beyond.sublist isMore).unsigned
      rw [← List.map_append] at goesOn
      exact (Branches.continues_prepend _ goesOn .nil).prepend _ _

theorem Statement.continues_ofTokens (line : Line) (tokens : Except String (List Token))
    {blocks others : Branches} (continues : blocks.Continues last others) :
    (ofTokens line tokens blocks).Continues last (ofTokens line tokens others) := by
  cases tokens with
  | error slice => exact .same _
  | ok tokens =>
      simp only [ofTokens]
      split
      · exact .same _
      · exact .instruction line tokens continues

theorem Statement.carries_ofLine (line : Line) {lines further : List Line}
    (beyond : Line.AreBeyond last further)
    (first : Line.ReadOn last ((ownedRuns (Token.scan line.text) lines).first.map Line.unsigned))
    (second : Line.ReadOn last ((ownedRuns (Token.scan line.text) lines).second.map Line.unsigned)) :
    Carries (Statement.Continues last) lines further (ofLine line lines)
      (ofLine line (lines ++ further)) := by
  have continues := Runs.continues_ownedRuns (Token.scan line.text) lines further
  exact (continues.carries beyond first second).map (ofTokens line (Token.scan line.text))
    (continues_ofTokens line (Token.scan line.text))

theorem Line.readOn (lines : List Line) : ReadOn last lines := by
  induction lines using gather.induct with
  | case1 =>
      intro further beyond
      rw [List.nil_append, gather]
      exact .done beyond.gather
  | case2 line rest empty induction =>
      intro further beyond
      rw [List.cons_append, gather, if_pos empty, gather, if_pos empty]
      exact induction further beyond
  | case3 line rest filled signed induction =>
      intro further beyond
      rw [List.cons_append, gather, if_neg filled, if_pos signed, gather, if_neg filled,
        if_pos signed]
      exact .cons _ (induction further beyond)
  | case4 line rest filled unsigned tokens runs first second induction =>
      intro further beyond
      have isFilled : line.text ≠ [] := by simpa using filled
      have isUnsigned : line.sign? = none := by simpa using unsigned
      rw [List.cons_append, gather_cons isFilled isUnsigned, gather_cons isFilled isUnsigned]
      refine (Statement.carries_ofLine line beyond first second).prolongs_cons ?_
        (induction further beyond) fun others sublist => (beyond.sublist sublist).gather
      rw [gather]

/-! ## Items -/

inductive Body.Continues (last : Nat) : Body → Body → Prop
  | entry (once : Bool) {statement other : Statement} (continues : statement.Continues last other) :
      Body.Continues last (.entry once statement) (.entry once other)

inductive Item.Continues (last : Nat) : Item → Item → Prop
  | mk (line : Line) (declarations : List Declaration) {body other : Body}
      (continues : body.Continues last other) :
      Item.Continues last ⟨line, declarations, body⟩ ⟨line, declarations, other⟩

namespace Item

/-- The item stands behind the line with the number `last`. -/
def IsBeyond (last : Nat) (item : Item) : Prop :=
  item.Mirrors (Place.Beyond last) item

theorem carries_readBody (line : Line) {lines further : List Line}
    (beyond : Line.AreBeyond last further) :
    Carries (Body.Continues last) lines further (readBody line lines)
      (readBody line (lines ++ further)) := by
  unfold readBody
  split
  · exact .settled _ rfl
  · exact .settled _ rfl
  · exact (Statement.carries_ofLine _ beyond (Line.readOn _) (Line.readOn _)).map _ (.entry true)
  · exact (Statement.carries_ofLine _ beyond (Line.readOn _) (Line.readOn _)).map _ (.entry false)

theorem carries_ofLine (line : Line) {lines further : List Line}
    (beyond : Line.AreBeyond last further) :
    Carries (Item.Continues last) lines further (ofLine line lines)
      (ofLine line (lines ++ further)) := by
  unfold ofLine
  simp only
  split
  · exact .settled _ rfl
  · exact (carries_readBody _ beyond).map _ (.mk line _)

/-- When lines behind `last` follow, the items of the lines are the same, except
that the last of them may go on. -/
theorem prolongs_ofLines (lines : List Line) {further : List Line}
    (beyond : Line.AreBeyond last further) :
    Prolongs (IsBeyond last) (Item.Continues last) (ofLines lines) (ofLines (lines ++ further)) := by
  have areBeyond {others : List Line} (sublist : others.Sublist further) :
      ∀ item ∈ ofLines others, item.IsBeyond last := by
    have alike := mirrors_ofLines (beyond.sublist sublist).mirrors
    rwa [List.forall₂_same] at alike
  induction lines using ofLines.induct with
  | case1 =>
      rw [List.nil_append, ofLines]
      exact .done (areBeyond (List.Sublist.refl further))
  | case2 line rest item count isItem induction =>
      have carries : Carries (Item.Continues last) rest further _ _ := carries_ofLine line beyond
      rw [isItem] at carries
      rw [List.cons_append, ofLines, ofLines, isItem]
      refine carries.prolongs_cons ?_ induction fun others => areBeyond
      rw [ofLines]

end Item

end NodeAssembly
