import HeaderCatalog.Catalog
import HeaderCatalog.Report.Markup
import HeaderCatalog.Text.Digit
import HeaderCatalog.Text.Width

/-!
# HeaderCatalog.Report.Table — the catalogue as a table

A table has a title, heads and rows, drawn with box characters. A column is as wide as its widest
cell, and the title stands in the middle above the table.
-/

namespace HeaderCatalog.Table

/-- On which side of its column a cell stands. -/
inductive Side where
  | left
  | right
deriving DecidableEq, Repr, Inhabited

/-- A column with its head and its cells. -/
structure Column where
  head : Text
  side : Side
  cells : List Text
deriving DecidableEq, Repr, Inhabited

/-- So many blanks. -/
def blanks (n : Nat) : Text := List.replicate n ' '

/-- The width of a column. -/
def Column.width (c : Column) : Nat :=
  ((c.head :: c.cells).map Text.width).foldl max 0

/-- A text filled up to a width, with a blank at either side. -/
def cell (side : Side) (width : Nat) (text : Text) : Text :=
  let gap := blanks (width - text.width)
  match side with
  | .left => ' ' :: text ++ gap ++ [' ']
  | .right => ' ' :: gap ++ text ++ [' ']

/-- Cells between marks. -/
def row (left middle right : Char) (cells : List Text) : Text :=
  left :: [middle].intercalate cells ++ [right]

/-- A line across the table. -/
def rule (left line middle right : Char) (columns : List Column) : Text :=
  row left middle right (columns.map fun c => List.replicate (c.width + 2) line)

/-- The rows of cells of the columns. -/
def rows (count : Nat) (columns : List Column) : List (List Text) :=
  (List.range count).map fun i =>
    columns.map fun c => cell c.side c.width (c.cells[i]?.getD [])

/-- A text in the middle of a line. -/
def centered (width : Nat) (text : Text) : Text :=
  let free := width - text.width
  blanks (free / 2) ++ text ++ blanks (free - free / 2)

/-- The lines of a table with so many rows. -/
def lines (title : Text) (count : Nat) (columns : List Column) : List Text :=
  let top := rule '┏' '━' '┳' '┓' columns
  let heads := row '┃' '┃' '┃' (columns.map fun c => cell c.side c.width c.head)
  centered top.length title :: top :: heads :: rule '┡' '━' '╇' '┩' columns ::
    (rows count columns).map (row '│' '│' '│') ++ [rule '└' '─' '┴' '┘' columns]

end HeaderCatalog.Table

namespace HeaderCatalog

/-- The words of a text with one blank between them. -/
def Text.collapse (text : Text) : Text :=
  [' '].intercalate ((words text).filter (!·.isEmpty))
where
  /-- The parts of a text between white space. -/
  words : Text → List Text
    | [] => [[]]
    | c :: rest => if isWordSpace c then [] :: words rest else consLine c (words rest)

/-- The catalogue of a file as a table; there is none if a cell or the title cannot be printed. -/
def tableReport (name : Text) (ds : List Descriptor) : Option String := do
  let column (head : String) (side : Table.Side) (cell : Descriptor → Text) :
      Option Table.Column := do
    return ⟨head.toList, side, ← ds.mapM fun d => Markup.plain? (cell d)⟩
  let columns ← [column "Kind" .left (·.kind.label.toList),
    column "Line" .right (fun d => (toString d.line).toList),
    column "Indent" .right (fun d => (toString d.indent).toList),
    column "Class" .left (fun d => d.enclosing.getD []),
    column "Header" .left (·.header.collapse)].mapM id
  let title ← Markup.plain? name
  return String.join ((Table.lines title ds.length columns).map fun l => String.ofList l ++ "\n")

end HeaderCatalog
