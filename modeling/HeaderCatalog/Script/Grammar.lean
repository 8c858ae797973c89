import HeaderCatalog.Script.Parser

/-!
# HeaderCatalog.Script.Grammar — phrases that refer to each other

The rules of the grammar refer to each other in circles. Each rule therefore takes the readers
of the other phrases as an argument, and `HeaderCatalog.Script.Program` ties them together with
a bound on the depth of nesting that no source exceeds.
-/

namespace HeaderCatalog.Script

/-- Readers of the phrases. -/
abbrev Grammar := Phrase → Parser Node

namespace Parser

/-- A part as a list. -/
def one (p : Parser Node) : Parser (List Node) := do
  return [← p]

/-- A phrase whose first part has been read: it started at `start`, and `parts` follow. -/
def extended (kind : String) (start : Nat) (first : Node) (parts : Parser (List Node)) :
    Parser Node := do
  let children ← parts
  return (← source).node kind true start (← get) (first :: children)

/-- A node in a field. -/
def fielded (name : String) (n : Node) : Node :=
  { n with field := some name }

/-- The operators and other marks that a longest match can give, the longer ones first. -/
def marks : List String :=
  [">>>=", "...", "===", "!==", "**=", "<<=", ">>=", ">>>", "&&=", "||=", "??=", "=>", "==", "!=",
    "<=", ">=", "&&", "||", "??", "?.", "++", "--", "+=", "-=", "*=", "/=", "%=", "&=", "|=", "^=",
    "<<", ">>", "**", "=", "<", ">", "+", "-", "*", "/", "%", "&", "|", "^", "!", "~", "?", "."]

/-- The longest mark at a place. A question mark in front of a decimal fraction stands alone. -/
def markAt (s : Source) (p : Nat) : String :=
  match marks.find? (s.has p) with
  | some "?." => if s.isAt (p + 2) Char.isDigit then "?" else "?."
  | some mark => mark
  | none => ""

/-- A mark, where no longer one stands. -/
def mark (m : String) : Parser Node :=
  leaf m false fun s p => if markAt s p == m then some (p + m.length) else none

/-- The word at the present place. -/
def word : Parser String := asks Source.nameAt

/-- The character at the present place. -/
def peek : Parser (Option Char) := asks Source.at?

/-! ## Literals -/

/-- A string between quotes. -/
def string : Parser Node := do
  let quote ← peek
  match quote with
  | some q =>
    check (q == '"' || q == '\'')
    let mark := String.ofList [q]
    phrase "string" (seq [one (punct mark),
      many (one (leaf "string_fragment" true (·.stringPart? q) <|>
        leaf "escape_sequence" true Source.escape?)),
      one (punct mark)])
  | none => failure

/-- A number. -/
def number : Parser Node := leaf "number" true Source.number?

/-- A regular expression between slashes. -/
def regex : Parser Node :=
  phrase "regex" (seq [one (punct "/"),
    one (inField "pattern" (leaf "regex_pattern" true Source.regexBody?)),
    one (punct "/"),
    maybe (one (inField "flags" (leaf "regex_flags" true Source.regexFlags?)))])

/-- A template with its substitutions. -/
def template (g : Grammar) : Parser Node :=
  phrase "template_string" (seq [one (punct "`"),
    many (one (leaf "string_fragment" true Source.templatePart? <|>
      leaf "escape_sequence" true Source.escape? <|>
      phrase "template_substitution" (seq [one (punct "$\x7b"), next (enclosed (g .expressions)),
        next (punct "\x7d")]))),
    one (punct "`")])

/-! ## Shared parts -/

/-- Expressions in parentheses. -/
def parenthesized (g : Grammar) : Parser Node :=
  phrase "parenthesized_expression" (seq [one (punct "("), next (enclosed (g .expressions)),
    next (punct ")")])

/-- An expression behind three dots. -/
def spread (g : Grammar) : Parser Node :=
  phrase "spread_element" (seq [one (punct "..."), next (g .expression)])

/-- The arguments of a call. -/
def arguments (g : Grammar) : Parser Node :=
  phrase "arguments" (seq [one (punct "("),
    commaHoles (enclosed (spread g <|> g .expression)), next (punct ")")])

/-- A target that may have a default value. -/
def withDefault (g : Grammar) (target : Parser Node) : Parser Node := do
  let start ← get
  let left ← target
  extended "assignment_pattern" start (fielded "left" left)
    (seq [next (mark "="), next (inField "right" (g .expression))]) <|> pure left

/-- The parameters of a function. -/
def formalParameters (g : Grammar) : Parser Node :=
  phrase "formal_parameters" (seq [one (punct "("),
    maybe (seq [commaSome (enclosed (withDefault g (g .pattern))), maybe (next (punct ","))]),
    next (punct ")")])

/-- The value that a declaration gives its target. -/
def initializer (g : Grammar) : Parser (List Node) :=
  seq [next (mark "="), next (inField "value" (g .expression))]

/-- The name of a property of an object or a member of a class. -/
def propertyKey (g : Grammar) : Parser Node :=
  propertyName <|> privateName <|> string <|> number <|>
    phrase "computed_property_name" (seq [one (punct "["), next (enclosed (g .expression)),
      next (punct "]")])

/-- A target that a declaration binds: an identifier, or a pattern in brackets or braces. -/
def binding (g : Grammar) : Parser Node := do
  match ← peek with
  | some '[' => g .pattern
  | some c => if c == Text.openBrace then g .pattern else identifier
  | none => failure

end Parser

end HeaderCatalog.Script
