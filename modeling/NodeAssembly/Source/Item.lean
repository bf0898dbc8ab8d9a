import NodeAssembly.Source.Statement

/-! The items of a source text: each line that stands for itself, with its
declarations and the instruction after them. -/

namespace NodeAssembly

open NodeAssembly.Text

/-- What follows the declarations of a line. -/
inductive Body where
  | blank
  | malformed (construct : Construct)
  | stray
  /-- An instruction, which may be marked to run only once. -/
  | entry (once : Bool) (statement : Statement)
deriving DecidableEq

structure Item where
  line : Line
  declarations : List Declaration
  body : Body
deriving DecidableEq

namespace Item

/-- Reads what follows the declarations, and how many of the lines below belong
to it. -/
def readBody (line : Line) (following : List Line) : Body × Nat :=
  match line.sign?, line.text with
  | some _, _ => (.stray, 0)
  | none, [] => (.blank, 0)
  | none, '@' :: text =>
    let (statement, count) := Statement.ofLine { line with text := trimStart text } following
    (.entry true statement, count)
  | none, _ =>
    let (statement, count) := Statement.ofLine line following
    (.entry false statement, count)

/-- The item of a line, and how many of the lines below belong to it. -/
def ofLine (line : Line) (following : List Line) : Item × Nat :=
  let heading := Heading.read line.text
  match heading.rest with
  | .error construct => (⟨line, heading.declarations, .malformed construct⟩, 0)
  | .ok rest =>
    let (body, count) := readBody { line with text := rest } following
    (⟨line, heading.declarations, body⟩, count)

def ofLines (lines : List Line) : List Item :=
  match lines with
  | [] => []
  | line :: rest =>
    let (item, count) := ofLine line rest
    item :: ofLines (rest.drop count)
termination_by lines.length
decreasing_by
  simp only [List.length_drop, List.length_cons]
  omega

/-- The items of a source text. -/
def ofSource (source : String) : List Item :=
  ofLines (Line.ofSource source)

end Item

end NodeAssembly
