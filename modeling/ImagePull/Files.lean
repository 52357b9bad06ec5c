import ImagePull.Text.Blank
import ImagePull.Text.Utf8

/-!
# Files and variables

What a command reads of its surroundings: the directory it works in, the
environment variables, and what stands at a path.
-/

namespace ImagePull

/-- What stands at a path. -/
inductive Entry where
  | missing
  | directory
  /-- The path leads through something that is no directory. -/
  | blocked
  /-- A socket, which exists but holds no text. -/
  | socket
  /-- A file that may not be read. -/
  | denied
  /-- The path has a name that is longer than names may be. -/
  | nameTooLong
  | file (content : List UInt8)
deriving DecidableEq, Repr

namespace Entry

/-- Whether there is anything at the path. -/
def exists? : Entry → Bool
  | .missing => false
  | .blocked => false
  | .nameTooLong => false
  | _ => true

/-- The content of a file, or why it cannot be read. -/
def bytes : Entry → Except String (List UInt8)
  | .missing => .error "No such file or directory (os error 2)"
  | .directory => .error "Is a directory (os error 21)"
  | .blocked => .error "Not a directory (os error 20)"
  | .socket => .error "No such device or address (os error 6)"
  | .denied => .error "Permission denied (os error 13)"
  | .nameTooLong => .error "File name too long (os error 36)"
  | .file content => .ok content

/-- The content of a text file, or why it cannot be read. -/
def text (e : Entry) : Except String String :=
  e.bytes.bind fun content => match Text.Utf8.text? content with
    | some s => .ok s
    | none => .error "stream did not contain valid UTF-8"

/-- Why nobody can be spoken to at the path, unless it is a socket. -/
def silence? : Entry → Option String
  | .socket => none
  | .directory => some "Connection refused (os error 111)"
  | .file _ => some "Connection refused (os error 111)"
  | .missing => some "No such file or directory (os error 2)"
  | .blocked => some "Not a directory (os error 20)"
  | .denied => some "Permission denied (os error 13)"
  | .nameTooLong => some "path must be shorter than SUN_LEN"

end Entry

/-- The surroundings of a command. -/
structure Surroundings where
  directory : String
  /-- The variables whose names and values are Unicode; any other counts as not set. -/
  environment : List (String × String) := []
  entry : String → Entry

namespace Surroundings

/-- The value of an environment variable. Variables are kept as texts `name=value`, and
the value of a name is what follows it and an equals sign in one of them. -/
def valueOf? (s : Surroundings) (name : String) : Option String :=
  s.environment.findSome? fun (known, value) =>
    Text.after? (known ++ "=" ++ value) (name ++ "=")

/-- The path of a name in a directory; an absolute name is its own path. -/
def join (directory name : String) : String :=
  if name.toList.head? = some '/' ∨ directory = "" then name
  else if directory.toList.getLast? = some '/' then directory ++ name
  else directory ++ "/" ++ name

end Surroundings

end ImagePull
