import NodeAssembly.OpCode
import NodeAssembly.Source.Declaration
import NodeAssembly.Source.Line
import NodeAssembly.Token.Lexer

/-! The statements of a source text, before any name in them is looked up. A
test owns the signed lines that follow it, first those of one sign and then
those of the other; or it has its branches on its own line. -/

namespace NodeAssembly

mutual

inductive Statement where
  /-- The tokens of an instruction, without those of its branches. -/
  | instruction (line : Line) (tokens : List Token) (branches : Branches)
  /-- A line with something in it that is no token. -/
  | illegible (line : Line) (slice : String)
  /-- A signed line that belongs to no test. -/
  | stray (line : Line)

/-- The branches of a test in the order in which they are written. -/
inductive Branches where
  | nil
  | cons (sign : Sign) (statement : Statement) (rest : Branches)

end

deriving instance DecidableEq for Statement
deriving instance DecidableEq for Branches

namespace Branches

/-- Puts statements of one sign in front of the others. -/
def prepend (sign : Sign) (statements : List Statement) (rest : Branches) : Branches :=
  statements.foldr (.cons sign) rest

end Branches

/-- The sign that a token is. -/
def Token.sign? : Token → Option Sign
  | .positive => some .positive
  | .negative => some .negative
  | _ => none

/-- Whether the first token is the mnemonic of a test. -/
def isTest (tokens : List Token) : Bool :=
  match tokens with
  | .word mnemonic :: _ =>
    match OpCode.ofMnemonic? mnemonic with
    | some (.test _) => true
    | _ => false
  | _ => false

/-- Splits tokens at their signs into what comes before the first sign and the
branches after it. A sign with nothing after it opens no branch. -/
def splitInline (line : Line) : List Token → List Token × Branches
  | [] => ([], .nil)
  | token :: rest =>
    let (group, branches) := splitInline line rest
    match token.sign? with
    | none => (token :: group, branches)
    | some sign =>
      ([], if group.isEmpty then branches
        else .cons sign (.instruction line group .nil) branches)

/-- The signed lines at the start of some lines: a run of one sign, and then a
run of the other. -/
structure Runs where
  sign : Sign
  first : List Line
  second : List Line

namespace Runs

def empty : Runs :=
  ⟨.positive, [], []⟩

def ofLines (lines : List Line) : Runs :=
  match lines.head?.bind Line.sign? with
  | none => .empty
  | some sign =>
    let first := lines.takeWhile fun line => line.sign? == some sign
    let second := (lines.drop first.length).takeWhile fun line => line.sign? == some sign.opposite
    ⟨sign, first, second⟩

/-- How many lines the runs have together. -/
def length (runs : Runs) : Nat :=
  runs.first.length + runs.second.length

theorem length_first_le (lines : List Line) : (ofLines lines).first.length ≤ lines.length := by
  unfold ofLines
  split
  · simp [empty]
  · exact (List.takeWhile_sublist _).length_le

theorem length_second_le (lines : List Line) : (ofLines lines).second.length ≤ lines.length := by
  unfold ofLines
  split
  · simp [empty]
  · have shorter := (List.takeWhile_sublist
      (l := lines.drop (lines.takeWhile fun line => line.sign? == some ‹Sign›).length)
      fun line => line.sign? == some (‹Sign›).opposite).length_le
    simp only [List.length_drop] at shorter
    simp only
    omega

end Runs

/-- Whether the instruction on a line takes its branches from the lines below:
it is a test without branches of its own. -/
def ownsBlocks (tokens : Except String (List Token)) : Bool :=
  match tokens with
  | .ok tokens => isTest tokens && !tokens.any Token.isBranch
  | .error _ => false

/-- The runs of the lines below that belong to an instruction. -/
def ownedRuns (tokens : Except String (List Token)) (following : List Line) : Runs :=
  if ownsBlocks tokens then .ofLines following else .empty

theorem length_first_ownedRuns_le (tokens : Except String (List Token)) (following : List Line) :
    (ownedRuns tokens following).first.length ≤ following.length := by
  unfold ownedRuns
  split
  · exact Runs.length_first_le following
  · simp [Runs.empty]

theorem length_second_ownedRuns_le (tokens : Except String (List Token)) (following : List Line) :
    (ownedRuns tokens following).second.length ≤ following.length := by
  unfold ownedRuns
  split
  · exact Runs.length_second_le following
  · simp [Runs.empty]

/-- The statement of a line, given the statements of its blocks. -/
def Statement.ofTokens (line : Line) (tokens : Except String (List Token)) (blocks : Branches) :
    Statement :=
  match tokens with
  | .error slice => .illegible line slice
  | .ok tokens =>
    if isTest tokens && tokens.any Token.isBranch then
      let (head, branches) := splitInline line tokens
      .instruction line head branches
    else .instruction line tokens blocks

/-- The statements of the lines of a block. -/
def gather (lines : List Line) : List Statement :=
  match lines with
  | [] => []
  | line :: rest =>
    if line.text.isEmpty then gather rest
    else if line.sign?.isSome then .stray line :: gather rest
    else
      let tokens := Token.scan line.text
      let runs := ownedRuns tokens rest
      let first := gather (runs.first.map Line.unsigned)
      let second := gather (runs.second.map Line.unsigned)
      let blocks := Branches.prepend runs.sign first (.prepend runs.sign.opposite second .nil)
      .ofTokens line tokens blocks :: gather (rest.drop runs.length)
termination_by lines.length
decreasing_by
  · simp
  · simp
  · simp only [List.length_map, List.length_cons]
    exact Nat.lt_succ_of_le (length_first_ownedRuns_le _ _)
  · simp only [List.length_map, List.length_cons]
    exact Nat.lt_succ_of_le (length_second_ownedRuns_le _ _)
  · simp only [List.length_drop, List.length_cons]
    omega

/-- The statement of a line, and how many of the lines below belong to it. -/
def Statement.ofLine (line : Line) (following : List Line) : Statement × Nat :=
  let tokens := Token.scan line.text
  let runs := ownedRuns tokens following
  let first := gather (runs.first.map Line.unsigned)
  let second := gather (runs.second.map Line.unsigned)
  let blocks := Branches.prepend runs.sign first (.prepend runs.sign.opposite second .nil)
  (.ofTokens line tokens blocks, runs.length)

end NodeAssembly
