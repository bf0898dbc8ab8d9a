/-! The lines of a text. A line ends at a line feed, and a carriage return
directly before the line feed belongs to the ending. Nothing after the last
line feed is no line. -/

namespace NodeAssembly.Text

/-- Drops one carriage return at the end of a line. -/
def dropReturn (line : List Char) : List Char :=
  match line.reverse with
  | '\r' :: before => before.reverse
  | _ => line

/-- The lines of `text`, where `line` holds what was read of the current line,
last character first. -/
def linesFrom (line : List Char) : List Char → List (List Char)
  | [] => if line.isEmpty then [] else [line.reverse]
  | '\n' :: rest => dropReturn line.reverse :: linesFrom [] rest
  | char :: rest => linesFrom (char :: line) rest

def lines (text : List Char) : List (List Char) :=
  linesFrom [] text

end NodeAssembly.Text
