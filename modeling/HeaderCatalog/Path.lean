import HeaderCatalog.Text.Quoted
import HeaderCatalog.Text.Utf8

/-!
# HeaderCatalog.Path — paths and what they lead to

A path is a list of names. Empty names and the name `.` are dropped, `..` is kept, so a path is
printed in one way only. What a path leads to comes from outside; a `FileTree` is such a source,
made of the files below the working directory.
-/

namespace HeaderCatalog

/-- A path: slashes in front if it does not start at the working directory, and names. -/
structure Path where
  root : Text
  names : List Text
deriving DecidableEq, Repr, Inhabited

namespace Path

/-- The parts of a text between slashes. -/
def slashParts : Text → List Text
  | [] => [[]]
  | c :: rest => if c = '/' then [] :: slashParts rest else Text.consLine c (slashParts rest)

/-- A path as it is written. Two slashes in front are kept, other numbers of them count as one. -/
def ofText (text : Text) : Path where
  root := match (text.takeWhile (· == '/')).length with
    | 0 => []
    | 2 => ['/', '/']
    | _ => ['/']
  names := (slashParts text).filter fun name => name != [] && name != ['.']

/-- A path in writing. -/
def render (p : Path) : Text :=
  if p.root.isEmpty && p.names.isEmpty then ['.']
  else p.root ++ ['/'].intercalate p.names

/-- The last name of a path. -/
def name (p : Path) : Text := p.names.getLast?.getD []

/-- The path of a file in a directory. -/
def child (p : Path) (name : String) : Path :=
  { p with names := p.names ++ [name.toList] }

/-- The ending of a name from its last dot on. A dot at either end of the name starts none. -/
def suffix (p : Path) : Text :=
  let back := p.name.reverse.takeWhile (· != '.')
  if back.isEmpty || p.name.length ≤ back.length + 1 then [] else '.' :: back.reverse

end Path

/-! ## What paths lead to -/

/-- Why a path leads to no file that can be read. -/
inductive FileError where
  | missing
  /-- A name on the way is that of a file. -/
  | underFile
  | directory
  | nameTooLong
deriving DecidableEq, Repr, Inhabited

/-- The error in words. -/
def FileError.message (e : FileError) (p : Path) : String :=
  let words := match e with
    | missing => "[Errno 2] No such file or directory"
    | underFile => "[Errno 20] Not a directory"
    | directory => "[Errno 21] Is a directory"
    | nameTooLong => "[Errno 36] File name too long"
  words ++ ": " ++ String.ofList p.render.quoted

/-- A source of files: the contents of the file that a path leads to. -/
abbrev Files := Path → Except FileError Bytes

/-- Does a path lead to something? A name that is too long is no answer. -/
def Files.exists? (files : Files) (p : Path) : Except FileError Bool :=
  match files p with
  | .ok _ => .ok true
  | .error .directory => .ok true
  | .error .nameTooLong => .error .nameTooLong
  | .error _ => .ok false

/-- Read `\r\n` and `\r` as a newline. -/
def Text.unifyNewlines : Text → Text
  | '\r' :: '\n' :: rest => '\n' :: unifyNewlines rest
  | '\r' :: rest => '\n' :: unifyNewlines rest
  | c :: rest => c :: unifyNewlines rest
  | [] => []

/-! ## Trees of files -/

/-- The files below the working directory, by their names; directories that are listed have no
contents. -/
abbrev FileTree := List (List Text × Option Bytes)

namespace FileTree

/-- What stands at a place below the working directory. Every name on the way to a file is that
of a directory. -/
def entry (t : FileTree) (names : List Text) : Except FileError Bytes :=
  match t.lookup names with
  | some (some bytes) => .ok bytes
  | some none => .error .directory
  | none =>
    if names.isEmpty || t.any (fun e => names.isPrefixOf e.1) then .error .directory
    else .error .missing

/-- The most bytes of a name. -/
def maxNameLength : Nat := 255

/-- Where the names of a path lead, from a place below the working directory on, or from outside of
it, of which nothing is known but that it has directories. -/
def walk (t : FileTree) : (place : Option (List Text)) → List Text → Except FileError Bytes
  | some place, [] => t.entry place
  | none, [] => .error .directory
  | none, name :: rest => if name == "..".toList then t.walk none rest else .error .missing
  | some place, name :: rest =>
    match t.entry place with
    | .ok _ => .error .underFile
    | .error .directory =>
      if name == "..".toList then
        t.walk (if place.isEmpty then none else some place.dropLast) rest
      else if maxNameLength < (Utf8.encode name).length then .error .nameTooLong
      else t.walk (some (place ++ [name])) rest
    | .error e => .error e

/-- The tree as a source of files. -/
def files (t : FileTree) : Files := fun p =>
  if p.root.isEmpty then t.walk (some []) p.names
  else if p.names.isEmpty then .error .directory
  else .error .missing

end FileTree

end HeaderCatalog
