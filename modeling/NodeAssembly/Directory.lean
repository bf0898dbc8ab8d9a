/-! A directory with files in it, and what a path leads to. The parts of a path
stand between slashes and are followed one after the other. A part that is
empty or a single dot stays where it is, two dots go up, and anything else must
be the name of something there. -/

namespace NodeAssembly

/-- Why the text of a file cannot be read. -/
inductive FileProblem where
  | missing
  | denied
  | notDirectory
  | isDirectory
  | nameTooLong
  /-- The bytes are no text. -/
  | notText
  /-- Anything else, as the system words it. -/
  | other (cause : String)
deriving DecidableEq, Repr

def FileProblem.message : FileProblem → String
  | .missing => "No such file or directory (os error 2)"
  | .denied => "Permission denied (os error 13)"
  | .notDirectory => "Not a directory (os error 20)"
  | .isDirectory => "Is a directory (os error 21)"
  | .nameTooLong => "File name too long (os error 36)"
  | .notText => "stream did not contain valid UTF-8"
  | .other cause => cause

/-- The names on the way to a file or a directory, from the top down. -/
abbrev Trail := List (List Char)

structure Directory where
  files : List (Trail × ByteArray)

namespace Directory

/-- The parts of a path, where `part` holds what was read of the current one,
last character first. -/
def partsFrom (part : List Char) : List Char → Trail
  | [] => [part.reverse]
  | '/' :: rest => part.reverse :: partsFrom [] rest
  | char :: rest => partsFrom (char :: part) rest

def parts (path : String) : Trail :=
  partsFrom [] path.toList

def ofFiles (files : List (String × ByteArray)) : Directory :=
  ⟨files.map fun (path, content) => (parts path, content)⟩

/-- Where a path has led so far. Nothing is known of what lies outside of the
directory. -/
inductive Place where
  | folder (trail : Trail)
  | file (content : ByteArray)
  | outside

/-- The most bytes that a name may have. -/
def nameLimit : Nat := 255

/-- The most bytes that a path may have. -/
def pathLimit : Nat := 4095

def find (directory : Directory) (trail : Trail) : Except FileProblem Place :=
  match directory.files.find? fun file => file.1 == trail with
  | some (_, content) => .ok (.file content)
  | none =>
    if directory.files.any fun file => trail.isPrefixOf file.1 then .ok (.folder trail)
    else .error .missing

/-- Goes from a place to something with a name. -/
def enter (directory : Directory) (place : Place) (name : List Char) : Except FileProblem Place :=
  if nameLimit < (String.ofList name).utf8ByteSize then .error .nameTooLong
  else
    match place with
    | .folder trail => directory.find (trail ++ [name])
    | _ => .error .missing

def goUp : Place → Place
  | .folder [] => .outside
  | .folder trail => .folder trail.dropLast
  | place => place

/-- Follows one part of a path. Nothing is below a file. -/
def follow (directory : Directory) (place : Place) (part : List Char) : Except FileProblem Place :=
  match place, part with
  | .file _, _ => .error .notDirectory
  | place, [] => .ok place
  | place, ['.'] => .ok place
  | place, ['.', '.'] => .ok (goUp place)
  | place, name => directory.enter place name

/-- Where a path starts: at the directory, unless it begins with a slash. -/
def origin (path : String) : Place :=
  match path.toList with
  | '/' :: _ => .outside
  | _ => .folder []

/-- Where a path leads to. The empty path leads nowhere. -/
def resolve (directory : Directory) (path : String) : Except FileProblem Place :=
  if path.isEmpty then .error .missing
  else if pathLimit < path.utf8ByteSize then .error .nameTooLong
  else (parts path).foldlM directory.follow (origin path)

/-- The content of the file that a path leads to. -/
def read (directory : Directory) (path : String) : Except FileProblem ByteArray := do
  match ← directory.resolve path with
  | .file content => return content
  | _ => throw .isDirectory

end Directory

end NodeAssembly
