import HeaderCatalog.Text

/-!
# HeaderCatalog.Fault — why an operation on texts or trees has no answer

Each cause is a constructor, so that a theorem can say exactly when it arises. Most of them
need an odd tree or an odd pattern; the parser's own trees give none but
`unsupportedParameter`, which the catalogue turns into a skipped entity. The three faults of sizes
are a matter of the settings, and of the text that has tabs to be written as spaces.
-/

namespace HeaderCatalog

/-- The causes of failure of the operations on patterns and syntax trees. -/
inductive Fault where
  /-- A token has no characters, and its first or last one is asked for. -/
  | emptyLiteral
  /-- The character before a place beyond the end of the text is asked for. -/
  | beyondText
  /-- A declaration has no children, and its keyword is asked for. -/
  | childless
  /-- The text or the children of a node that is not there are asked for. -/
  | absentNode
  /-- The span of a node cuts a character in two. -/
  | brokenText
  /-- A method stands in no class, and its class is looked for where a `class` begins. -/
  | namelessClass
  /-- Tabs are to be written as more spaces than any text can hold. -/
  | tabsTooWide
  /-- The text has too many tabs to be written as spaces. -/
  | textTooLong
  /-- The characters of a text fit, but not with the mark of its end. -/
  | noRoom
  /-- A parameter is not a plain name. -/
  | unsupportedParameter (parameter : Text)
deriving DecidableEq, Repr

/-- The message of an unsupported parameter. -/
def Fault.parameterMessage (parameter : Text) : Text :=
  "Parameter '".toList ++ parameter ++ "' is not a plain identifier".toList

/-- A fault in words. -/
def Fault.message : Fault → String
  | emptyLiteral => "a token has no characters"
  | beyondText => "a place lies beyond the end of the text"
  | childless => "a declaration has no keyword"
  | absentNode => "a node is absent"
  | brokenText => "a node cuts a character in two"
  | namelessClass => "a method stands in no class"
  | tabsTooWide => "cannot fit 'int' into an index-sized integer"
  | textTooLong => "replace string is too long"
  | noRoom => ""
  | unsupportedParameter parameter => String.ofList (parameterMessage parameter)

end HeaderCatalog
