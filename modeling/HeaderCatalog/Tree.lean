import HeaderCatalog.Fault

/-!
# HeaderCatalog.Tree — syntax trees

A node of a syntax tree knows its kind, the bytes of the source it spans, the field it fills in
its parent, its text and its children. Named nodes stand for constructs, the others for the
keywords and punctuation between them.
-/

namespace HeaderCatalog

/-- Row and column at which a node starts, both from zero. -/
structure Point where
  row : Nat
  column : Nat
deriving DecidableEq, Repr, Inhabited

/-- A node of a syntax tree. `text` is what it spans in the source, and a fault if its span does
not consist of whole characters. -/
structure Node where
  kind : String
  start : Nat
  stop : Nat
  named : Bool
  field : Option String
  isError : Bool
  isMissing : Bool
  hasError : Bool
  point : Point
  text : Except Fault Text
  children : List Node
deriving Inhabited

namespace Node

/-- The children that stand for constructs. -/
def namedChildren (n : Node) : List Node :=
  n.children.filter (·.named)

/-- All children that fill a field, in order. -/
def fieldChildren (n : Node) (field : String) : List Node :=
  n.children.filter (·.field == some field)

/-- The first child that fills a field. -/
def fieldChild? (n : Node) (field : String) : Option Node :=
  n.children.find? (·.field == some field)

/-- Does some child, named or not, have this kind? -/
def hasChild (n : Node) (kind : String) : Bool :=
  n.children.any (·.kind == kind)

/-- What tells a node from the other children of its parent: its kind and its span. -/
def key (n : Node) : String × Nat × Nat :=
  (n.kind, n.start, n.stop)

theorem sizeOf_children_lt (n : Node) : sizeOf n.children < sizeOf n := by
  cases n
  simp only [Node.mk.sizeOf_spec]
  omega

theorem sizeOf_lt_of_mem_children {c n : Node} (h : c ∈ n.children) : sizeOf c < sizeOf n :=
  Nat.lt_trans (List.sizeOf_lt_of_mem h) n.sizeOf_children_lt

theorem mem_children_of_mem_namedChildren {c n : Node} (h : c ∈ n.namedChildren) :
    c ∈ n.children :=
  (List.mem_filter.1 h).1

theorem mem_children_of_mem_fieldChildren {c n : Node} {field : String}
    (h : c ∈ n.fieldChildren field) : c ∈ n.children :=
  (List.mem_filter.1 h).1

theorem mem_children_of_fieldChild? {c n : Node} {field : String}
    (h : n.fieldChild? field = some c) : c ∈ n.children :=
  List.mem_of_find?_eq_some h

end Node

/-- The text of a node that may be absent; the text of an absent node is a fault. -/
def textOf (n : Option Node) : Except Fault Text :=
  match n with
  | some n => n.text
  | none => .error .absentNode

end HeaderCatalog
