import HeaderCatalog.Catalog

/-!
# HeaderCatalog.Scan — from a source to its catalogue

A source is parsed into a tree, the tree is checked for errors, and the catalogue of the tree is
located in the source. A tree with an error gives no catalogue: the place of the first error
node is reported instead. Any function may serve as the parser.
-/

namespace HeaderCatalog

/-- Where a source does not parse, with its line counted from one. -/
structure SyntaxError where
  detail : String
  line : Nat
  column : Nat
deriving DecidableEq, Repr, Inhabited

namespace SyntaxError

/-- The error at a node: something is missing there, or nothing fits. -/
def ofNode (n : Node) : SyntaxError where
  detail := if n.isMissing then "missing '" ++ n.kind ++ "'" else "syntax error"
  line := n.point.row + 1
  column := n.point.column

/-- The error in words. -/
def message (e : SyntaxError) : String :=
  e.detail ++ " at line " ++ toString e.line ++ ", column " ++ toString e.column

/-- The error as an event of the run. -/
def event (e : SyntaxError) : Event := .parseFailed e.detail e.line e.column

end SyntaxError

/-- Why a source has no catalogue. -/
inductive ScanError where
  | unparsed (error : SyntaxError)
  | fault (fault : Fault)
deriving DecidableEq, Repr, Inhabited

/-- The error in words. -/
def ScanError.message : ScanError → String
  | unparsed e => e.message
  | fault f => f.message

/-- A tree without errors, or the place of its first error. A tree that is said to hold an error,
but shows none, has it at its root. -/
def Node.clean (root : Node) : Except SyntaxError Node :=
  if root.hasError then .error (.ofNode ((firstError root).getD root)) else .ok root

/-- What the run reports about a tree before its entities are looked at. -/
def gapEvents (root : Node) : List Event :=
  match gapReport root with
  | [] => []
  | counts => [.gaps counts]

/-- The catalogue of a source whose tree is given, with the events of the run. -/
def scanTree (root : Node) (source : Text) (settings : Settings) :
    Except ScanError (List Descriptor × List Event) := do
  let root ← root.clean.mapError .unparsed
  let (ds, events) ← (catalogTree root source settings).mapError .fault
  return (ds, gapEvents root ++ events)

/-- The catalogue of a source, with the events of the run. -/
def scan (parse : Text → Node) (source : Text) (settings : Settings) :
    Except ScanError (List Descriptor × List Event) :=
  scanTree (parse source) source settings

end HeaderCatalog
