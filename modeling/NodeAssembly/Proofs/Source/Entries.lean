import Mathlib.Data.List.TakeWhile
import NodeAssembly.Source.Item

/-! Which lines of a source text start an instruction of the top level, and
where its labels stand among them. This is read off the lines one by one: the
lines that belong to a test are signed, so they declare nothing and start no
instruction of the top level. -/

namespace NodeAssembly

open NodeAssembly.Text

/-- The labels among some declarations. -/
def Declaration.labels (declarations : List Declaration) : List String :=
  declarations.filterMap fun
    | .label name => some name
    | _ => none

namespace Line

/-- The labels that the line declares. -/
def labels (line : Line) : List String :=
  Declaration.labels (Heading.read line.text).declarations

/-- Whether an instruction follows the declarations of the line and belongs to
no test. -/
def startsEntry (line : Line) : Bool :=
  match (Heading.read line.text).rest with
  | .ok (first :: _) => (Sign.ofChar? first).isNone
  | _ => false

/-- The labels of some lines, each with the number of instructions before it,
if there were `count` before the first line. -/
def labelsFrom (count : Nat) : List Line → List (String × Nat)
  | [] => []
  | line :: rest =>
    line.labels.map (·, count) ++ labelsFrom (count + if line.startsEntry then 1 else 0) rest

end Line

/-- The declaration of the label stands in the source text after so many
instructions of the top level. -/
def LabelAt (source : String) (label : String) (count : Nat) : Prop :=
  ∃ before line after, Line.ofSource source = before ++ line :: after ∧ label ∈ line.labels ∧
    before.countP Line.startsEntry = count

namespace Line

theorem mem_labelsFrom {label : String} {target : Nat} (count : Nat) (lines : List Line) :
    (label, target) ∈ labelsFrom count lines ↔
      ∃ before line after, lines = before ++ line :: after ∧ label ∈ line.labels ∧
        count + before.countP startsEntry = target := by
  induction lines generalizing count with
  | nil => simp [labelsFrom]
  | cons head tail induction =>
      rw [labelsFrom, List.mem_append, induction]
      constructor
      · rintro (here | ⟨before, line, after, rfl, declared, rfl⟩)
        · rcases List.mem_map.mp here with ⟨name, declared, equal⟩
          cases equal
          exact ⟨[], head, tail, rfl, declared, rfl⟩
        · refine ⟨head :: before, line, after, rfl, declared, ?_⟩
          rw [List.countP_cons]
          omega
      · rintro ⟨before, line, after, split, declared, rfl⟩
        cases before with
        | nil =>
            cases split
            exact .inl (List.mem_map.mpr ⟨label, declared, rfl⟩)
        | cons first before =>
            cases split
            refine .inr ⟨before, line, after, rfl, declared, ?_⟩
            rw [List.countP_cons]
            omega

/-! ## Signed lines -/

theorem read_of_sign {line : Line} (signed : line.sign?.isSome) :
    Heading.read line.text = ⟨[], .ok line.text⟩ := by
  unfold sign? at signed
  cases text : line.text with
  | nil => rw [text] at signed; cases signed
  | cons first rest =>
      rw [text] at signed
      have absent : Declaration.readAt first rest = .absent := by
        simp only [List.head?_cons, Option.bind_some, Sign.ofChar?] at signed
        split at signed
        · rfl
        · rfl
        · cases signed
      rw [Heading.read, absent]

theorem labels_of_sign {line : Line} (signed : line.sign?.isSome) : line.labels = [] := by
  rw [labels, read_of_sign signed]
  rfl

theorem startsEntry_of_sign {line : Line} (signed : line.sign?.isSome) :
    line.startsEntry = false := by
  rw [startsEntry, read_of_sign signed]
  unfold sign? at signed
  cases text : line.text with
  | nil => rfl
  | cons first rest =>
      rw [text] at signed
      simpa using signed

/-- Signed lines at the start make no difference to the labels. -/
theorem labelsFrom_drop (count taken : Nat) (lines : List Line)
    (signed : ∀ line ∈ lines.take taken, line.sign?.isSome) :
    labelsFrom count (lines.drop taken) = labelsFrom count lines := by
  induction taken generalizing lines with
  | zero => rfl
  | succ taken induction =>
      cases lines with
      | nil => rfl
      | cons head tail =>
          have headSigned := signed head List.mem_cons_self
          rw [labelsFrom, labels_of_sign headSigned, startsEntry_of_sign headSigned]
          exact induction tail fun line member => signed line (List.mem_cons_of_mem _ member)

theorem countP_startsEntry_drop (taken : Nat) (lines : List Line)
    (signed : ∀ line ∈ lines.take taken, line.sign?.isSome) :
    (lines.drop taken).countP startsEntry = lines.countP startsEntry := by
  have none : (lines.take taken).countP startsEntry = 0 := by
    rw [List.countP_eq_zero]
    intro line member
    rw [startsEntry_of_sign (signed line member)]
    exact Bool.false_ne_true
  calc (lines.drop taken).countP startsEntry
      = (lines.take taken).countP startsEntry + (lines.drop taken).countP startsEntry := by
        rw [none, Nat.zero_add]
    _ = lines.countP startsEntry := by rw [← List.countP_append, List.take_append_drop]

end Line

namespace Runs

theorem take_length_eq (lines : List Line) :
    lines.take (ofLines lines).length = (ofLines lines).first ++ (ofLines lines).second := by
  unfold ofLines length
  split
  · rfl
  next sign _ =>
    rw [List.take_add]
    congr 1
    · exact (List.prefix_iff_eq_take.mp (List.takeWhile_prefix _)).symm
    · exact (List.prefix_iff_eq_take.mp (List.takeWhile_prefix _)).symm

theorem mem_signed {lines : List Line} {line : Line}
    (member : line ∈ (ofLines lines).first ++ (ofLines lines).second) : line.sign?.isSome := by
  unfold ofLines at member
  split at member
  · cases member
  · rcases List.mem_append.mp member with inFirst | inSecond
    · have signed := List.mem_takeWhile_imp inFirst
      rw [eq_of_beq signed]
      rfl
    · have signed := List.mem_takeWhile_imp inSecond
      rw [eq_of_beq signed]
      rfl

end Runs

/-- The lines below that a statement takes are signed. -/
theorem ownedRuns_signed (tokens : Except String (List Token)) (following : List Line) :
    ∀ line ∈ following.take (ownedRuns tokens following).length, line.sign?.isSome := by
  intro line member
  unfold ownedRuns at member
  split at member
  · rw [Runs.take_length_eq] at member
    exact Runs.mem_signed member
  · cases member

namespace Item

/-- Whether the item is an instruction of the top level. -/
def isEntry (item : Item) : Bool :=
  match item.body with
  | .entry _ _ => true
  | _ => false

theorem declarations_ofLine (line : Line) (following : List Line) :
    (ofLine line following).1.declarations = (Heading.read line.text).declarations := by
  unfold ofLine
  simp only
  split <;> rfl

theorem isEntry_ofLine (line : Line) (following : List Line) :
    (ofLine line following).1.isEntry = line.startsEntry := by
  unfold ofLine Line.startsEntry
  simp only
  cases (Heading.read line.text).rest with
  | error construct => rfl
  | ok rest =>
      cases rest with
      | nil => rfl
      | cons first rest =>
          simp only [readBody, Line.sign?, List.head?_cons, Option.bind_some, isEntry]
          cases Sign.ofChar? first with
          | some sign => rfl
          | none =>
              by_cases marked : first = '@'
              · subst marked
                rfl
              · simp [marked]

theorem ofLine_signed (line : Line) (following : List Line) :
    ∀ other ∈ following.take (ofLine line following).2, other.sign?.isSome := by
  intro other member
  unfold ofLine at member
  simp only at member
  split at member
  · cases member
  · unfold readBody at member
    split at member
    · cases member
    · cases member
    · exact ownedRuns_signed _ following other member
    · exact ownedRuns_signed _ following other member

end Item

end NodeAssembly
