import HeaderCatalog.Catalog
import HeaderCatalog.Text.Quoted

/-!
# HeaderCatalog.Report.Record — descriptors as records, and records as JSON

A descriptor is a record of named fields; those that it does not have are left out. The JSON text
of records is indented by two spaces and holds characters of ASCII only.
-/

namespace HeaderCatalog

/-- What a field of a record holds. -/
inductive Datum where
  | text (t : Text)
  | number (i : Int)
  | texts (ts : List Text)
deriving DecidableEq, Repr, Inhabited

/-- The fields of a descriptor, in order. -/
def Descriptor.fields (d : Descriptor) : List (String × Datum) :=
  [("kind", .text d.kind.label.toList), ("line", .number d.line), ("indent", .number d.indent),
    ("header", .text d.header)] ++
  (d.enclosing.map fun c => ("class", Datum.text c)).toList ++
  (d.params.map fun ps => ("params", Datum.texts ps)).toList ++
  (d.keyword.map fun k => ("declaration", Datum.text k.toList)).toList

namespace Json

/-! ## Strings -/

/-- A unit of 16 bits by its number. -/
def unit (n : Nat) : Text := '\\' :: 'u' :: Text.hexDigits 4 n

/-- A character by its number; one beyond 16 bits is written as two units. -/
def numbered (c : Char) : Text :=
  let n := c.toNat
  if n < 0x10000 then unit n
  else unit (0xD800 + (n - 0x10000) / 0x400) ++ unit (0xDC00 + (n - 0x10000) % 0x400)

/-- The characters that have an escape of their own. -/
def escapes : List (Char × Char) :=
  [('"', '"'), ('\\', '\\'), ('\n', 'n'), ('\r', 'r'), ('\t', 't'), ('\x08', 'b'), ('\x0c', 'f')]

/-- A character in a string. -/
def char (c : Char) : Text :=
  match escapes.lookup c with
  | some e => ['\\', e]
  | none => if ' ' ≤ c && c ≤ '~' then [c] else numbered c

/-- A string. -/
def string (t : Text) : String :=
  "\"" ++ String.ofList (t.flatMap char) ++ "\""

/-! ## Lists and records -/

/-- Items between marks, each on a line of its own; the lines are indented by `depth` steps more
than the marks are. -/
def lines (depth : Nat) (start stop : String) (items : List String) : String :=
  if items.isEmpty then start ++ stop
  else
    let indent (n : Nat) := String.ofList (List.replicate (2 * n) ' ')
    start ++ "\n" ++ ",\n".intercalate (items.map (indent (depth + 1) ++ ·)) ++ "\n"
      ++ indent depth ++ stop

/-- What a field holds, at a depth. -/
def datum (depth : Nat) : Datum → String
  | .text t => string t
  | .number i => toString i
  | .texts ts => lines depth "[" "]" (ts.map string)

/-- A record at a depth. -/
def record (depth : Nat) (fields : List (String × Datum)) : String :=
  lines depth "\x7b" "\x7d" (fields.map fun (name, d) =>
    string name.toList ++ ": " ++ datum (depth + 1) d)

end Json

/-- The catalogue as JSON text. -/
def jsonReport (ds : List Descriptor) : String :=
  Json.lines 0 "[" "]" (ds.map fun d => Json.record 1 d.fields) ++ "\n"

end HeaderCatalog
