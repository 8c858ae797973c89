import HeaderCatalog.Entity
import HeaderCatalog.Pattern

/-!
# HeaderCatalog.Header — the header pattern of an entity

The header of a declaration is described by its keywords, its name and the names of its
parameters. A header with other parameters (defaults, destructuring, rest) has no such pattern.

In jsscribe these are `build_pattern`, with a builder for each kind of entity, and
`entity_parameters`.
-/

namespace HeaderCatalog

/-! ## Parameters -/

/-- The plain names in a list of parameters. Comments are passed over. -/
def plainNames : List Node → Except Fault (List Text)
  | [] => .ok []
  | n :: rest =>
    if n.kind = "comment" then plainNames rest
    else if n.kind = "identifier" then do
      let name ← n.text
      return name :: (← plainNames rest)
    else do throw (.unsupportedParameter (← n.text))

/-- The names of a parameter list, or of a single parameter that stands without parentheses. -/
def parameterNames : Option Node → Except Fault (List Text)
  | none => .ok []
  | some n =>
    if n.kind = "identifier" then return [← n.text]
    else plainNames n.namedChildren

namespace Node

/-- The parameter names of a function, arrow function or method. -/
def parameters (n : Node) : Except Fault (List Text) :=
  match n.fieldChild? "parameters" with
  | some params => parameterNames (some params)
  | none => parameterNames (n.fieldChild? "parameter")

/-- The modifiers of a method: what stands in front of its name and is not itself named. -/
def modifiers (n : Node) : List String :=
  let before : List Node := match n.fieldChild? "name" with
    | some name => n.children.takeWhile (·.start < name.start)
    | none => n.children
  (before.filter (! ·.named)).map (·.kind)

/-- The parameter names of a method. A getter has none and a setter one. -/
def methodParameters (n : Node) : Except Fault (List Text) :=
  if n.modifiers.contains "get" then .ok []
  else do
    let names ← n.parameters
    return if n.modifiers.contains "set" then names.take 1 else names

end Node

/-- The parameter names that the catalogue gives for an entity; classes have none to give. -/
def Entity.parameters (e : Entity) : Except Fault (Option (List Text)) :=
  match e.kind with
  | .classDecl => .ok none
  | .variable =>
    match e.node.fieldChild? "value" with
    | some value => return some (← value.parameters)
    | none => .error .absentNode
  | .method => return some (← e.node.methodParameters)
  | .function => return some (← e.node.parameters)

/-! ## Patterns -/

namespace Pattern

/-- Add names with commas between them. -/
def names (p : Pattern) : List Text → Pattern
  | [] => p
  | [name] => p.lit name
  | name :: rest => ((p.lit name).lit [',']).names rest

/-- Add a list of parameters in parentheses; a comma may follow the last one. -/
def parameterList (p : Pattern) (params : List Text) : Pattern :=
  let listed := (p.lit ['(']).names params
  (if params.isEmpty then listed else listed.add [','] .any true).lit [')']

/-- Add the brace that opens a body. -/
def body (p : Pattern) : Pattern :=
  p.lit [Text.openBrace]

/-- Add the modifiers of a method. Blanks have to stand between two of them unless one is a
star. `previous` is the modifier in front of them. -/
def modifiers (p : Pattern) (previous : Option String) : List String → Pattern × Option String
  | [] => (p, previous)
  | m :: rest =>
    let gap := if previous = some "*" ∨ m = "*" then Gap.any else Gap.many
    (p.add m.toList gap false).modifiers (some m) rest

end Pattern

namespace Node

/-- The header of a function declaration, from `function` or `async` through its brace. -/
def functionPattern (n : Node) : Except Fault Pattern := do
  let start :=
    if n.hasChild "async" then (Pattern.empty.lit "async".toList).word "function".toList
    else Pattern.empty.lit "function".toList
  let name ← textOf (n.fieldChild? "name")
  let named := if n.hasChild "*" then (start.lit ['*']).lit name else start.word name
  return (named.parameterList (← n.parameters)).body

/-- The header of an arrow function, from its parameters through its arrow. -/
def arrowPattern (value : Node) (isAsync : Bool) (p : Pattern) : Except Fault Pattern := do
  match value.fieldChild? "parameter" with
  | some single =>
    return (p.add (← single.text) (if isAsync then .many else .any) false).lit "=>".toList
  | none => return (p.parameterList (← value.parameters)).lit "=>".toList

/-- The header of a function expression, from `function` through its brace. -/
def functionValuePattern (value : Node) (isAsync : Bool) (p : Pattern) : Except Fault Pattern := do
  let generator := value.hasChild "*"
  let keyword := p.add "function".toList (if isAsync then .many else .any) false
  let starred := if generator then keyword.lit ['*'] else keyword
  let named ← match value.fieldChild? "name" with
    | some name => pure (starred.add (← name.text) (if generator then .any else .many) false)
    | none => pure starred
  return (named.parameterList (← value.parameters)).body

/-- The header of a function-valued variable, from its name on. -/
def variablePattern (n : Node) : Except Fault Pattern := do
  let name ← textOf (n.fieldChild? "name")
  let assigned := (Pattern.empty.lit name).lit ['=']
  match n.fieldChild? "value" with
  | none => throw .absentNode
  | some value =>
    let isAsync := value.hasChild "async"
    let p := if isAsync then assigned.lit "async".toList else assigned
    if value.kind = "arrow_function" then value.arrowPattern isAsync p
    else value.functionValuePattern isAsync p

/-- The header of a class, from `class` through its brace. What follows `extends` is taken as it
is written. -/
def classPattern (n : Node) : Except Fault Pattern := do
  let name ← textOf (n.fieldChild? "name")
  let named := (Pattern.empty.lit "class".toList).word name
  let heritage := (n.namedChildren.find? (·.kind == "class_heritage")).bind (·.namedChildren.head?)
  match heritage with
  | some base => return ((named.word "extends".toList).word (← base.text)).body
  | none => return named.body

/-- The header of a method, from its first modifier or its name through its brace. -/
def methodPattern (n : Node) : Except Fault Pattern := do
  let (p, previous) := Pattern.empty.modifiers none n.modifiers
  let name ← textOf (n.fieldChild? "name")
  let gap := if previous = none ∨ previous = some "*" then Gap.any else Gap.many
  return ((p.add name gap false).parameterList (← n.methodParameters)).body

end Node

/-- The header pattern of an entity as its tokens stand in the source. -/
def Entity.header (e : Entity) : Except Fault Pattern :=
  match e.kind with
  | .function => e.node.functionPattern
  | .variable => e.node.variablePattern
  | .classDecl => e.node.classPattern
  | .method => e.node.methodPattern

/-- The pattern that finds the header in a text normalized with the same tab size, or the
parameter for which there is none. -/
def Entity.pattern (e : Entity) (tabSize : Nat) : Except Fault (Except Text Pattern) :=
  match e.header with
  | .ok p => do return .ok (← p.normalForm tabSize)
  | .error (.unsupportedParameter parameter) => .ok (.error parameter)
  | .error fault => .error fault

end HeaderCatalog
