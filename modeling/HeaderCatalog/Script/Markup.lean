import HeaderCatalog.Script.Grammar

/-!
# HeaderCatalog.Script.Markup — markup elements in expressions
-/

namespace HeaderCatalog.Script.Parser

/-- The name of a tag or attribute. -/
def tagIdentifier (kind : String) : Parser Node := leaf kind true Source.tagName?

/-- Two names with a colon between them. -/
def namespaceName : Parser Node :=
  phrase "jsx_namespace_name" (seq [one (tagIdentifier "identifier"), next (punct ":"),
    next (tagIdentifier "identifier")])

/-- The name of an element: a name, a name in a namespace, or a property of an object. -/
def elementName : Parser Node :=
  namespaceName <|> (do
    let start ← get
    properties start (← tagIdentifier "identifier") ((← source).size))
where
  /-- The properties behind a name. -/
  properties (start : Nat) (object : Node) : (fuel : Nat) → Parser Node
    | 0 => pure object
    | fuel + 1 => (do
        let n ← extended "member_expression" start (fielded "object" object)
          (seq [next (punct "."), next (inField "property" propertyName)])
        properties start n fuel) <|> pure object

/-- An expression between braces; there may be none. -/
def markupExpression (g : Grammar) : Parser Node :=
  phrase "jsx_expression" (seq [one (punct "\x7b"),
    maybe (next (enclosed (spread g <|> g .expressions))), next (punct "\x7d")])

/-- A string as the value of an attribute. -/
def attributeString : Parser Node := do
  match ← peek with
  | some q =>
    check (q == '"' || q == '\'')
    let mark := String.ofList [q]
    phrase "string" (seq [one (punct mark),
      many (one (leaf "html_character_reference" true Source.characterReference? <|>
        leaf "string_fragment" true (·.attributePart? q))),
      one (punct mark)])
  | none => failure

/-- An attribute of an element. -/
def attribute' (g : Grammar) : Parser Node :=
  markupExpression g <|>
    phrase "jsx_attribute" (seq [one (namespaceName <|> tagIdentifier "property_identifier"),
      maybe (seq [next (punct "="),
        next (attributeString <|> markupExpression g <|> g .element)])])

/-- The name and the attributes of a tag. -/
def tagHead (g : Grammar) : Parser (List Node) :=
  seq [next (inField "name" elementName), many (next (inField "attribute" (attribute' g)))]

/-- A child of an element. Text is taken as it stands; in front of other children white space is
skipped. -/
def markupChild (g : Grammar) : Parser (List Node) :=
  one (leaf "jsx_text" true Source.markupText?) <|> (do
    let s ← source
    set (s.skipWhile isSpace (← get))
    one (leaf "html_character_reference" true Source.characterReference? <|>
      markupExpression g <|> g .element))

/-- A closing tag, behind white space. -/
def closingTag : Parser (List Node) := do
  let s ← source
  set (s.skipWhile isSpace (← get))
  one (inField "close_tag" (phrase "jsx_closing_element"
    (seq [one (punct "</"), maybe (next (inField "name" elementName)), next (punct ">")])))

/-- An element: one tag that closes itself, or two tags with children between them. -/
def element (g : Grammar) : Parser Node :=
  phrase "jsx_self_closing_element" (seq [one (punct "<"), tagHead g, next (punct "/>")]) <|>
    phrase "jsx_element" (seq [
      one (inField "open_tag" (phrase "jsx_opening_element"
        (seq [one (punct "<"), maybe (tagHead g), next (punct ">")]))),
      many (markupChild g), closingTag])

end HeaderCatalog.Script.Parser
