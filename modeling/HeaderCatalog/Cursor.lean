import HeaderCatalog.Location
import HeaderCatalog.Pattern

/-!
# HeaderCatalog.Cursor — where the next header is searched for

Entities come in source order, so a search resumes after the body of the last match, then after
its header, then at the start of the text. `Cursor.resolve` tries these places in turn and
moves the cursor past what it finds; a search that finds nothing leaves the cursor where it is.

In jsscribe these are `SearchCursor`, with `starts`, `advance` and `resolve`, and `resolve` itself.
-/

namespace HeaderCatalog

/-- The location of the first match at or after `start` in a text that begins at `offset` of the
source whose lines are given. -/
def resolve (p : Pattern) (text : Text) (lines : List Text) (offset : Int) (start : Nat) :
    Except Fault (Option (Location × Match)) := do
  match ← p.search text start with
  | none => return none
  | some m =>
    let location := Location.ofIndex (m.index + offset) lines
    return if location.found then some (location, m) else none

/-- The resume points of successive searches over one text. -/
structure Cursor where
  text : Text
  offset : Int
  afterHeader : Nat
  afterBody : Nat
deriving DecidableEq, Repr, Inhabited

namespace Cursor

/-- The cursor at the start of a text that begins at `offset` of the source. -/
def ofText (text : Text) (offset : Int) : Cursor := ⟨text, offset, 0, 0⟩

/-- The places where a search starts, in the order in which they are tried. -/
def starts (c : Cursor) : List Nat :=
  [c.afterBody, c.afterHeader, 0].eraseDups

/-- The end of the body that follows a header. A header that ends in a brace opens its body;
after any other one the body is the block that follows, if a block does. -/
def bodyEnd (text : Text) (m : Match) : Nat :=
  if m.text.endsWith Text.openBrace then blockEnd text (m.stop - 1)
  else
    let next := m.stop + Text.blanks (text.drop m.stop)
    if text[next]? = some Text.openBrace then blockEnd text next else m.stop

/-- Move past a match. -/
def advance (c : Cursor) (m : Match) : Cursor :=
  { c with afterHeader := m.stop, afterBody := bodyEnd c.text m }

/-- The first of the starting places from which the pattern is found. -/
def firstFrom (c : Cursor) (p : Pattern) (lines : List Text) :
    List Nat → Except Fault (Option (Location × Match))
  | [] => .ok none
  | start :: rest => do
    match ← HeaderCatalog.resolve p c.text lines c.offset start with
    | some found => return some found
    | none => firstFrom c p lines rest

/-- Locate the pattern past earlier matches and move on. -/
def resolve (c : Cursor) (p : Pattern) (lines : List Text) :
    Except Fault (Option (Location × Match) × Cursor) := do
  match ← c.firstFrom p lines c.starts with
  | some (location, m) => return (some (location, m), c.advance m)
  | none => return (none, c)

end Cursor

end HeaderCatalog
