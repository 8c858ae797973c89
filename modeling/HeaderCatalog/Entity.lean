import HeaderCatalog.Tree.Walk

/-!
# HeaderCatalog.Entity — the declarations that can be documented

Classes, functions, function-valued variables and methods, as `discover` finds them in a tree:
only the statements of the program and the members of its classes count; what is nested in
functions or in object literals does not.

Discovery works off a stack of frames. It ends because every frame is replaced by the children
of its node, which weigh less together than the frame did.

In jsscribe these are `DocumentableEntity` and `documentables`.
-/

namespace HeaderCatalog

/-- The kinds of documentable declarations. -/
inductive EntityKind where
  | classDecl
  | function
  | variable
  | method
deriving DecidableEq, Repr, Inhabited

/-- The name of a kind in the catalogue. -/
def EntityKind.label : EntityKind → String
  | .classDecl => "class"
  | .function => "function"
  | .variable => "variable"
  | .method => "method"

/-- A declaration found in a tree. A variable is represented by its declarator and keeps the
keyword of its declaration. -/
structure Entity where
  kind : EntityKind
  node : Node
  enclosing : Option Text
  keyword : Option String
deriving Inhabited

namespace Entity

/-- The kinds of nodes that declare a function. -/
def functionKinds : List String :=
  ["function_declaration", "generator_function_declaration"]

/-- The kinds of nodes that are functions when they stand as the value of a variable. -/
def functionValueKinds : List String :=
  ["function_expression", "function", "generator_function", "arrow_function"]

/-- The kinds of nodes that declare variables. -/
def variableKinds : List String :=
  ["variable_declaration", "lexical_declaration"]

/-- A declarator whose value is a function. -/
def ofDeclarator? (enclosing : Option Text) (keyword : String) : Item → Option Entity
  | .marker _ _ => none
  | .node n =>
    if n.kind = "variable_declarator" then
      match n.fieldChild? "value" with
      | some value =>
        if functionValueKinds.contains value.kind then
          some ⟨.variable, n, enclosing, some keyword⟩
        else none
      | none => none
    else none

/-- A member of a class that is a method. -/
def ofMember? (enclosing : Option Text) : Item → Option Entity
  | .marker _ _ => none
  | .node n => if n.kind = "method_definition" then some ⟨.method, n, enclosing, none⟩ else none

end Entity

/-! ## One node -/

/-- An item that waits on the stack, with the class it stands in. -/
structure Frame where
  item : Item
  enclosing : Option Text
deriving Inhabited

/-- What a node contributes: the entities it stands for, and the class in which its children
are looked at, if they are. -/
structure Contribution where
  entities : List Entity
  inside : Option (Option Text)
deriving Inhabited

/-- The contribution of a node that stands in `enclosing`. -/
def Node.contribution (includeExports : Bool) (enclosing : Option Text) (n : Node) :
    Except Fault Contribution :=
  if n.kind = "program" then .ok ⟨[], some none⟩
  else if n.kind = "export_statement" then
    .ok ⟨[], if includeExports then some enclosing else none⟩
  else if n.kind = "class_declaration" then do
    let name ← textOf (n.fieldChild? "name")
    return ⟨[⟨.classDecl, n, none, none⟩], some (some name)⟩
  else if Entity.functionKinds.contains n.kind then
    .ok ⟨[⟨.function, n, enclosing, none⟩], none⟩
  else if Entity.variableKinds.contains n.kind then
    match n.children.head? with
    | none => .error .childless
    | some keyword => .ok ⟨n.items.filterMap (Entity.ofDeclarator? enclosing keyword.kind), none⟩
  else if n.kind = "class_body" then
    .ok ⟨n.items.filterMap (Entity.ofMember? enclosing), none⟩
  else .ok ⟨[], none⟩

/-- The contribution of an item; markers contribute nothing. -/
def Frame.contribution (includeExports : Bool) (f : Frame) : Except Fault Contribution :=
  match f.item with
  | .node n => n.contribution includeExports f.enclosing
  | .marker _ _ => .ok ⟨[], none⟩

/-! ## The whole tree -/

/-- The frames for the children of an item that stand in `enclosing`. -/
def Item.frames (i : Item) (enclosing : Option Text) : List Frame :=
  i.children.map (⟨·, enclosing⟩)

/-- Take frames off a stack in turn; the first fault ends the search. -/
def discoverStack (includeExports : Bool) : List Frame → Except Fault (List Entity)
  | [] => .ok []
  | f :: stack => do
    let c ← f.contribution includeExports
    let rest ← match c.inside with
      | some enclosing => discoverStack includeExports (f.item.frames enclosing ++ stack)
      | none => discoverStack includeExports stack
    return c.entities ++ rest
termination_by stack => stackWeight (stack.map (·.item))
decreasing_by
  · have h : (f.item.frames enclosing).map (·.item) = f.item.children := by
      rw [Item.frames, List.map_map]
      exact List.map_id f.item.children
    rw [List.map_append, h, stackWeight_append, List.map_cons, stackWeight_cons,
      Item.weight_eq f.item]
    omega
  · rw [List.map_cons, stackWeight_cons, Item.weight_eq f.item]
    omega

/-- The documentable declarations of a tree, in source order. Exported declarations are looked
at only if `includeExports` says so. -/
def discover (root : Node) (includeExports : Bool) : Except Fault (List Entity) :=
  discoverStack includeExports [⟨.node root, none⟩]

end HeaderCatalog
