import HeaderCatalog.Text

/-!
# HeaderCatalog.Location — lines, columns and blocks

* `Location.ofIndex` turns an offset of a text into a line and a column of its lines.
* `blockEnd` finds the brace that closes the one at an offset. Braces in strings, templates and
  comments count like any other.
-/

namespace HeaderCatalog

/-- A place in a source: the line counts from one, the column from zero. -/
structure Location where
  line : Int
  indent : Int
deriving DecidableEq, Repr, Inhabited

namespace Location

/-- The location of something that is nowhere in the source. -/
def notFound : Location := ⟨-1, -1⟩

/-- Is this the location of something in the source? -/
def found (l : Location) : Bool :=
  1 ≤ l.line && 0 ≤ l.indent

/-- The location of the offset `index` in lines that are numbered from `line` on. Every line
is followed by one newline, which belongs to it. -/
def inLines (line : Int) (index : Nat) : List Text → Location
  | [] => notFound
  | l :: rest =>
    if index ≤ l.length then ⟨line, index⟩
    else inLines (line + 1) (index - (l.length + 1)) rest

/-- The location of an offset of the text that consists of `lines`. -/
def ofIndex (index : Int) (lines : List Text) : Location :=
  if index < 0 then notFound else inLines 1 index.toNat lines

end Location

/-! ## Blocks -/

/-- How many characters of a text end with the brace that brings the number of open braces,
`depth` before the text, down to zero. -/
def closing? : (depth : Int) → Text → Option Nat
  | _, [] => none
  | depth, c :: rest =>
    if c = Text.openBrace then (closing? (depth + 1) rest).map (· + 1)
    else if c = Text.closeBrace then
      if depth = 1 then some 1 else (closing? (depth - 1) rest).map (· + 1)
    else (closing? depth rest).map (· + 1)

/-- The offset just past the brace that closes the one at `brace`. A block that is never closed
runs to the end of the text. -/
def blockEnd (text : Text) (brace : Nat) : Nat :=
  match closing? 0 (text.drop brace) with
  | some n => brace + n
  | none => text.length

end HeaderCatalog
