import HeaderCatalog.Location
import HeaderCatalog.Pattern

/-!
# HeaderCatalog.ClassText — the texts of classes

Methods are searched for in the text of their class only. `ClassText.isolate` cuts that text
out, and a `ClassIndex` keeps the texts of one run: the first look-up of a name decides, so two
classes of one name share the text of the first.

In jsscribe these are `ClassText`, `extract_class` and `ClassBodyIndex`.
-/

namespace HeaderCatalog

/-- The text of a class from its `class` keyword through its closing brace, and the offset at
which it starts. -/
structure ClassText where
  start : Nat
  text : Text
deriving DecidableEq, Repr, Inhabited

namespace ClassText

/-- The pattern that opens a class of this name when nothing better is known. -/
def opening (name : Text) : Pattern :=
  (Pattern.empty.lit "class".toList).word name

/-- The offset of the opening brace of a class whose header matched: the last character of the
match, or the first brace after it. -/
def brace? (text : Text) (m : Match) : Option Nat :=
  if m.text.endsWith Text.openBrace then some (m.stop - 1) else text.find? Text.openBrace m.stop

/-- The text from a matched header through the end of the block that follows it. -/
def ofMatch (text : Text) (m : Match) : ClassText :=
  let stop := match brace? text m with
    | some b => blockEnd text b
    | none => text.length
  ⟨m.index, text.slice m.index stop⟩

/-- The class whose header is the first match of `header` at or after `start`. -/
def isolate (text : Text) (header : Pattern) (start : Nat) : Except Fault (Option ClassText) := do
  return (← header.search text start).map (ofMatch text)

/-- Looking for a class without a name fails where `class` and a blank stand, since its name is
asked for there, and finds nothing if they stand nowhere. -/
def isolateNameless (text : Text) (start : Nat) : Except Fault (Option ClassText) :=
  match (opening []).search text start with
  | .ok _ => .ok none
  | .error _ => .error .namelessClass

end ClassText

/-! ## The texts of one run -/

/-- The class texts found so far, by class name in the order of the first look-up; a name whose
class was not found is kept too. A class of an odd tree may have no name. -/
structure ClassIndex where
  text : Text
  entries : List (Option Text × Option ClassText)
deriving DecidableEq, Repr, Inhabited

namespace ClassIndex

/-- The index of a text before the first look-up. -/
def ofText (text : Text) : ClassIndex := ⟨text, []⟩

/-- Has the name been looked up? -/
def contains (index : ClassIndex) (name : Option Text) : Bool :=
  index.entries.any (·.1 == name)

/-- The number of names that have been looked up. -/
def size (index : ClassIndex) : Nat := index.entries.length

/-- What a first look-up finds: the class that `header` opens at or after `start`, where the
header is `class` and the name unless another one is given. -/
def isolate (index : ClassIndex) (name : Option Text) (header : Option Pattern) (start : Nat) :
    Except Fault (Option ClassText) :=
  match header, name with
  | some h, _ => ClassText.isolate index.text h start
  | none, some n => ClassText.isolate index.text (ClassText.opening n) start
  | none, none => ClassText.isolateNameless index.text start

/-- Look a class up. The header and the start matter for the first look-up of a name only. -/
def get (index : ClassIndex) (name : Option Text) (header : Option Pattern) (start : Nat) :
    Except Fault (Option ClassText × ClassIndex) :=
  match index.entries.lookup name with
  | some entry => .ok (entry, index)
  | none => do
    let entry ← index.isolate name header start
    return (entry, { index with entries := index.entries ++ [(name, entry)] })

end ClassIndex

end HeaderCatalog
