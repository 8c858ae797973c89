import HeaderCatalog.Script.Grammar

/-!
# HeaderCatalog.Script.Function — functions, methods and classes

Function and class expressions and declarations differ in their kind and in whether they need a
name. The words `static`, `async`, `get` and `set` are modifiers of a method only if a name
follows on the same statement; otherwise they name the member themselves.
-/

namespace HeaderCatalog.Script.Parser

/-! ## Functions -/

/-- The word `async` in front of a function, with the comments behind it. At the end of a
statement it is a name, if `value` says that a name could stand there. -/
def asyncWord (value : Bool) : Parser (List Node) := do
  let k ← keyword "async"
  check !(value && (← endsHere true))
  return k :: (← comments)

/-- A function of the given kind, or of the second kind if it has a star. -/
def functionLike (g : Grammar) (value : Bool) (kind generator : String)
    (name stop : Parser (List Node)) : Parser Node := do
  let start ← get
  let front ← seq [maybe (asyncWord value), one (keyword "function")]
  let star ← maybe (next (punct "*"))
  let rest ← seq [name, next (inField "parameters" (formalParameters g)),
    next (inField "body" (g (.block value))), stop]
  return (← source).node (if star.isEmpty then kind else generator) true start (← get)
    (front ++ star ++ rest)

/-- A function that stands for a value. -/
def functionExpression (g : Grammar) : Parser Node :=
  functionLike g true "function_expression" "generator_function"
    (maybe (next (inField "name" identifier))) (pure [])

/-- A function declaration. `value` says that a function could stand for a value here. -/
def functionDeclaration (g : Grammar) (value : Bool) : Parser Node :=
  functionLike g value "function_declaration" "generator_function_declaration"
    (next (inField "name" identifier)) (declarationEnd value)

/-- The arrow of an arrow function and its body. -/
def arrowBody (g : Grammar) : Parser (List Node) :=
  seq [next (mark "=>"), next (inField "body" (do
    if (← peek) == some Text.openBrace then g (.block true) else g .expression))]

/-- An arrow function with one parameter and no parentheses. -/
def bareArrow (g : Grammar) : Parser Node :=
  let from' (front : Parser (List Node)) := phrase "arrow_function"
    (seq [front, one (inField "parameter" identifier), arrowBody g])
  from' (asyncWord true) <|> from' (pure [])

/-- An arrow function with its parameters in parentheses. -/
def listArrow (g : Grammar) : Parser Node :=
  phrase "arrow_function" (seq [maybe (asyncWord true),
    one (inField "parameters" (formalParameters g)), arrowBody g])

/-! ## Methods -/

/-- The start of a member's name. -/
def keyStart : Parser Unit := do
  let p ← get
  let s ← source
  check ((s.name? p).isSome || s.isAt p ("\"'[#*".toList.contains ·) || (s.number? p).isSome)

/-- A modifier of a member: one of these words, with a name behind it. In a class a line break
may end the member instead. -/
def modifier (inClass : Bool) (words : List String) : Parser (List Node) := do
  let w ← word
  check (words.contains w)
  let k ← keyword w
  check !(inClass && (← endsHere false))
  check (← follows keyStart)
  return k :: (← comments)

/-- The words `static get` up to a line break are one modifier. -/
def staticGet : Parser (List Node) := do
  let token ← leaf "static get" false fun s p =>
    let afterStatic := p + 6
    let getAt := s.skipWhile isSpace afterStatic
    let blank := s.text (getAt + 3) (s.skipWhile isSpace (getAt + 3))
    if s.nameAt p == "static" && afterStatic < getAt && s.has getAt "get" &&
        blank.contains '\n' then
      some (getAt + 3 + (blank.length - (blank.reverse.takeWhile (· != '\n')).length))
    else none
  return token :: (← comments)

/-- Something that is called on a class or a member: a name with the names and the call behind
it, or an expression in parentheses. -/
def decorator (g : Grammar) : Parser Node :=
  phrase "decorator" (seq [one (punct "@"), next (parenthesized g <|> called)])
where
  /-- The properties behind a name. -/
  properties (start : Nat) (object : Node) : (fuel : Nat) → Parser Node
    | 0 => pure object
    | fuel + 1 => (do
        let n ← extended "member_expression" start (fielded "object" object)
          (seq [next (mark "."), next (inField "property" propertyName)])
        properties start n fuel) <|> pure object
  /-- A name with its properties, perhaps called. -/
  called : Parser Node := do
    let start ← get
    let n ← properties start (← identifier) ((← source).size)
    extended "call_expression" start (fielded "function" n)
      (next (inField "arguments" (arguments g))) <|> pure n

/-- The decorators in front of a class or a member. -/
def decorators (g : Grammar) : Parser (List Node) := do
  let ds ← many (nexts (one (inField "decorator" (decorator g))))
  if ds.isEmpty then return [] else return ds ++ (← comments)

/-- A method with its decorators and modifiers. -/
def method (g : Grammar) (inClass : Bool) : Parser Node :=
  phrase "method_definition" (seq [decorators g,
    maybe (staticGet <|> modifier inClass ["static"]),
    maybe (modifier inClass ["async"]),
    maybe (modifier inClass ["get", "set"] <|> (do return (← punct "*") :: (← comments))),
    one (inField "name" (propertyKey g)),
    next (inField "parameters" (formalParameters g)),
    next (inField "body" (g (.block false)))])

/-! ## Classes -/

/-- A field of a class, without the end of the statement. -/
def fieldDefinition (g : Grammar) : Parser (List Node) := do
  let start ← get
  let front ← seq [decorators g, maybe (modifier true ["static"]),
    one (inField "property" (propertyKey g))]
  let value ← if ← endsHere false then pure [] else maybe (initializer g)
  let n := (← source).node "field_definition" true start (← get) (front ++ value)
  return fielded "member" n :: (← semicolon !value.isEmpty)

/-- A block that runs when the class is made. -/
def staticBlock (g : Grammar) : Parser Node :=
  phrase "class_static_block" (seq [one (keyword "static"),
    next (inField "body" (g (.block false)))])

/-- A member of a class, with the semicolon that may follow it. -/
def classMember (g : Grammar) : Parser (List Node) :=
  one (punct ";") <|>
    one (inField "member" (staticBlock g)) <|>
    seq [one (inField "member" (method g true)), maybe (next (punct ";"))] <|>
    fieldDefinition g

/-- The members of a class between braces. -/
def classBody (g : Grammar) : Parser Node :=
  phrase "class_body" (seq [one (punct "\x7b"), many (nexts (unenclosed (classMember g))),
    next (punct "\x7d")])

/-- The class that a class extends. -/
def classHeritage (g : Grammar) : Parser Node :=
  phrase "class_heritage" (seq [one (keyword "extends"), next (enclosed (g .expression))])

/-- A class of the given kind. -/
def classLike (g : Grammar) (kind : String) (name stop : Parser (List Node)) : Parser Node :=
  phrase kind (seq [decorators g, one (keyword "class"), name,
    maybe (next (classHeritage g)), next (inField "body" (classBody g)), stop])

/-- A class that stands for a value. -/
def classExpression (g : Grammar) : Parser Node :=
  classLike g "class" (maybe (next (inField "name" identifier))) (pure [])

/-- A class declaration. `value` says that a class could stand for a value here. -/
def classDeclaration (g : Grammar) (value : Bool) : Parser Node :=
  classLike g "class_declaration" (next (inField "name" identifier)) (declarationEnd value)

end HeaderCatalog.Script.Parser
