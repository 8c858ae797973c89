import HeaderCatalog.ClassText
import HeaderCatalog.Cursor
import HeaderCatalog.Event
import HeaderCatalog.Header
import HeaderCatalog.Settings

/-!
# HeaderCatalog.Catalog — locating the headers of discovered entities

Classes, functions and variables are searched for in the whole text, methods in the text of
their class only. Each search resumes past the last match in the same text, so repeated headers
map to successive places. An entity that is not located is left out, and an event says why.

In jsscribe this is `metainfo`.
-/

namespace HeaderCatalog

/-- A located entity: where its header stands and what it says. -/
structure Descriptor where
  kind : EntityKind
  line : Int
  indent : Int
  header : Text
  enclosing : Option Text
  params : Option (List Text)
  keyword : Option String
  name : Text
deriving DecidableEq, Repr, Inhabited

/-- The name of an entity; one without a name has an empty one. -/
def Entity.name (e : Entity) : Except Fault Text :=
  match e.node.fieldChild? "name" with
  | some n => n.text
  | none => .ok []

/-! ## The state of a run -/

/-- What a run over the entities of one text remembers: the class texts, the cursor over the
whole text and one cursor for each class, and the events so far, the last one first. -/
structure Run where
  lines : List Text
  classes : ClassIndex
  topLevel : Cursor
  inClass : List (Option Text × Cursor)
  events : List Event
deriving Inhabited

namespace Run

/-- The state before the first entity of a normalized text. -/
def start (text : Text) : Run :=
  ⟨text.lines, .ofText text, .ofText text 0, [], []⟩

/-- Report an event. -/
def report (r : Run) (event : Event) : Run :=
  { r with events := event :: r.events }

/-- Look a class up, and report it if it is not found. -/
def classText (r : Run) (name : Option Text) (header : Option Pattern) (start : Nat) :
    Except Fault (Option ClassText × Run) := do
  let isNew := ! r.classes.contains name
  let (entry, classes) ← r.classes.get name header start
  let r := { r with classes }
  return (entry, if isNew && entry.isNone then r.report (.classNotFound name) else r)

/-- The cursor over the text of a class; the first method of a class starts it. -/
def classCursor (r : Run) (name : Option Text) (body : ClassText) : Cursor :=
  (r.inClass.lookup name).getD (.ofText body.text body.start)

/-- Remember the cursor of a class. -/
def setClassCursor (r : Run) (name : Option Text) (cursor : Cursor) : Run :=
  { r with inClass := (name, cursor) :: r.inClass.filter (·.1 != name) }

/-- Locate a method in the text of its class. -/
def locateMethod (r : Run) (e : Entity) (name : Text) (p : Pattern) :
    Except Fault (Option (Location × Match) × Run) := do
  let (entry, r) ← r.classText e.enclosing none 0
  match entry with
  | none => return (none, r.report (.methodWithoutClass name e.enclosing))
  | some body =>
    let (found, cursor) ← (r.classCursor e.enclosing body).resolve p r.lines
    let r := r.setClassCursor e.enclosing cursor
    return (found, if found.isNone then r.report (.noMatch e.kind.label name p.render) else r)

/-- A class that was located has its text isolated from its header on, unless its name was
looked up before. -/
def isolateClass (r : Run) (name : Text) (p : Pattern) (m : Match) : Except Fault Run :=
  if r.classes.contains (some name) then .ok (r.report (.classAgain name))
  else do return (← r.classText (some name) (some p) m.index).2

/-- Locate a class, function or variable in the whole text. -/
def locateTopLevel (r : Run) (e : Entity) (name : Text) (p : Pattern) :
    Except Fault (Option (Location × Match) × Run) := do
  let (found, topLevel) ← r.topLevel.resolve p r.lines
  let r := { r with topLevel }
  match found with
  | none => return (none, r.report (.noMatch e.kind.label name p.render))
  | some (_, m) =>
    return (found, ← if e.kind = .classDecl then r.isolateClass name p m else pure r)

/-- Locate an entity by its pattern. -/
def locate (r : Run) (e : Entity) (name : Text) (p : Pattern) :
    Except Fault (Option (Location × Match) × Run) :=
  if e.kind = .method then r.locateMethod e name p else r.locateTopLevel e name p

/-- One entity: its descriptor if it is located, and the state after it. -/
def step (r : Run) (tabSize : Nat) (e : Entity) : Except Fault (Option Descriptor × Run) := do
  let name ← e.name
  match ← e.pattern tabSize with
  | .error parameter =>
    return (none, (r.report (.noPattern e.kind.label parameter)).report
      (.unmodelled e.kind.label name))
  | .ok p =>
    let (found, r) ← r.locate e name p
    match found with
    | none => return (none, r)
    | some (location, m) =>
      let params ← e.parameters
      return (some ⟨e.kind, location.line, location.indent, m.text, e.enclosing, params,
        e.keyword, name⟩, r)

/-- All entities in turn. -/
def steps (tabSize : Nat) : Run → List Entity → Except Fault (List Descriptor × Run)
  | r, [] => .ok ([], r)
  | r, e :: rest => do
    let (d, r) ← r.step tabSize e
    let (ds, r) ← steps tabSize r rest
    return (d.toList ++ ds, r)

end Run

/-! ## The catalogue -/

/-- The descriptors of the entities that are located in a source, in order, and the events of
the run. -/
def catalog (entities : List Entity) (source : Text) (settings : Settings) :
    Except Fault (List Descriptor × List Event) := do
  let text ← source.normalForm settings.tabSize
  let (ds, r) ← Run.steps settings.tabSize (.start text) entities
  return (ds, (r.report (.located ds.length entities.length)).events.reverse)

/-- The catalogue of a syntax tree over a source. -/
def catalogTree (root : Node) (source : Text) (settings : Settings) :
    Except Fault (List Descriptor × List Event) := do
  let entities ← discover root settings.includeExports
  let (ds, events) ← catalog entities source settings
  return (ds, .discovered entities.length :: events)

end HeaderCatalog
