import HeaderCatalog.Script.Expression

/-!
# HeaderCatalog.Script.Statement — statements and declarations
-/

namespace HeaderCatalog.Script.Parser

/-! ## Declarations -/

/-- A target with its value. -/
def declarator (g : Grammar) : Parser Node :=
  phrase "variable_declarator" (seq [one (inField "name" (binding g)), maybe (initializer g)])

/-- Does the last declarator of a list end in an expression? -/
def endsInValue (declarators : List Node) : Bool :=
  (declarators.filter (·.kind == "variable_declarator")).getLast?.any
    (·.children.any (·.field == some "value"))

/-- Declarators with their semicolon. -/
def declarators (g : Grammar) : Parser (List Node) := do
  let ds ← commaSome (declarator g)
  return ds ++ (← semicolon (endsInValue ds))

/-- A declaration with `var`. -/
def variableDeclaration (g : Grammar) : Parser Node :=
  phrase "variable_declaration" (seq [one (keyword "var"), declarators g])

/-- A declaration with `let` or `const`. The word `let` at the end of a statement is a name, if
`value` says that a name could stand there. -/
def lexicalDeclaration (g : Grammar) (value : Bool) : Parser Node :=
  phrase "lexical_declaration" (seq [one (inField "kind" (keyword "const" <|> (do
      let k ← keyword "let"
      check !(value && (← endsHere true))
      return k))), declarators g])

/-- A declaration of resources with `using` or `await using`. -/
def usingDeclaration (g : Grammar) : Parser Node :=
  phrase "using_declaration" (seq [
    maybe (do return (← inField "kind" (keyword "await")) :: (← comments)),
    one (inField "kind" (keyword "using")), declarators g])

/-- A declaration. `value` says that a value could stand here. -/
def declaration (g : Grammar) (value : Bool) : Parser Node := do
  match ← word with
  | "function" => functionDeclaration g value
  | "async" => functionDeclaration g value
  | "class" => classDeclaration g value
  | "const" => lexicalDeclaration g value
  | "let" => lexicalDeclaration g value
  | "var" => variableDeclaration g
  | "using" => usingDeclaration g
  | "await" => usingDeclaration g
  | _ => do
    check ((← peek) == some '@')
    classDeclaration g value

/-! ## Modules -/

/-- The name under which something is imported or exported. -/
def exportName : Parser Node :=
  keyword "default" <|> identifier <|> string

/-- Where something is imported from. -/
def fromClause : Parser (List Node) :=
  seq [next (keyword "from"), next (inField "source" string)]

/-- How something is imported. -/
def importAttribute (g : Grammar) : Parser (List Node) :=
  maybe (next (phrase "import_attribute" (seq [one (keyword "with" <|> keyword "assert"),
    next (object g)])))

/-- Items between braces, with commas between them and perhaps behind the last. -/
def bracedList (kind : String) (item : Parser Node) : Parser Node :=
  phrase kind (seq [one (punct "\x7b"),
    maybe (seq [commaSome item, maybe (next (punct ","))]), next (punct "\x7d")])

/-- One imported name. -/
def importSpecifier : Parser Node :=
  phrase "import_specifier" (seq [one (inField "name" exportName), next (keyword "as"),
    next (inField "alias" identifier)]) <|>
  phrase "import_specifier" (one (inField "name" identifier))

/-- One exported name. -/
def exportSpecifier : Parser Node :=
  phrase "export_specifier" (seq [one (inField "name" exportName),
    maybe (seq [next (keyword "as"), next (inField "alias" exportName)])])

/-- The imported names. -/
def importClause : Parser Node :=
  let group := phrase "namespace_import" (seq [one (punct "*"), next (keyword "as"),
    next identifier]) <|> bracedList "named_imports" importSpecifier
  phrase "import_clause" (one group <|>
    seq [one identifier, maybe (seq [next (punct ","), next group])])

/-- An import. -/
def importStatement (g : Grammar) : Parser Node :=
  phrase "import_statement" (seq [one (keyword "import"),
    next (inField "source" string) <|> seq [next importClause, fromClause],
    importAttribute g, semicolon false])

/-- What an export lists. -/
def exportList (g : Grammar) : Parser (List Node) :=
  let clause := bracedList "export_clause" exportSpecifier
  let whole := phrase "namespace_export" (seq [one (punct "*"), next (keyword "as"),
    next exportName])
  seq [seq [next whole, fromClause, importAttribute g] <|>
      seq [next (punct "*"), fromClause, importAttribute g] <|>
      seq [next clause, fromClause, importAttribute g] <|>
      next clause,
    semicolon false]

/-- What an export declares. -/
def exportDeclaration (g : Grammar) : Parser (List Node) :=
  next (inField "declaration" (declaration g false)) <|>
    seq [next (keyword "default"),
      next (inField "declaration" (declaration g true)) <|>
        seq [next (inField "value" (g .expression)), semicolon true]]

/-- An export. -/
def exportStatement (g : Grammar) : Parser Node :=
  phrase "export_statement" (seq [decorators g, one (keyword "export"),
    exportList g <|> exportDeclaration g])

/-! ## Control -/

/-- A statement in a field. -/
def bodyIn (g : Grammar) (field : String) : Parser (List Node) :=
  next (inField field (g .statement))

/-- A condition in parentheses. -/
def conditionIn (g : Grammar) (field : String) : Parser (List Node) :=
  next (inField field (parenthesized g))

/-- A choice of statements. -/
def ifStatement (g : Grammar) : Parser Node :=
  phrase "if_statement" (seq [one (keyword "if"), conditionIn g "condition",
    bodyIn g "consequence",
    maybe (next (inField "alternative" (phrase "else_clause"
      (seq [one (keyword "else"), next (g .statement)]))))])

/-- The statements of a case. -/
def caseBody (g : Grammar) : Parser (List Node) :=
  seq [next (punct ":"), many (next (inField "body" (g .statement)))]

/-- A choice among cases. -/
def switchStatement (g : Grammar) : Parser Node :=
  let oneCase := phrase "switch_case" (seq [one (keyword "case"),
    next (inField "value" (enclosed (g .expressions))), caseBody g])
  let otherwise := phrase "switch_default" (seq [one (keyword "default"), caseBody g])
  phrase "switch_statement" (seq [one (keyword "switch"), conditionIn g "value",
    next (inField "body" (phrase "switch_body" (seq [one (punct "\x7b"),
      many (next (oneCase <|> otherwise)), next (punct "\x7d")])))])

/-- What a loop over values binds. -/
def loopTarget (g : Grammar) : Parser (List Node) :=
  let target := next (inField "left" (binding g))
  seq [one (inField "kind" (keyword "var")), target, maybe (initializer g)] <|>
    seq [one (inField "kind" (keyword "let" <|> keyword "const" <|> keyword "using")), target] <|>
    seq [one (inField "kind" (keyword "await")), next (inField "kind" (keyword "using")),
      target] <|>
    one (inField "left" (g .pattern <|> parenthesized g))

/-- A loop over the keys or elements of a value. -/
def forInStatement (g : Grammar) : Parser Node :=
  phrase "for_in_statement" (seq [one (keyword "for"), maybe (next (keyword "await")),
    next (punct "("), nexts (enclosed (loopTarget g)),
    next (inField "operator" (keyword "in" <|> keyword "of")),
    next (inField "right" (enclosed (g .expressions))), next (punct ")"), bodyIn g "body"])

/-- An empty statement. -/
def emptyStatement : Parser Node :=
  phrase "empty_statement" (one (punct ";"))

/-- A loop with a start, a condition and a step. -/
def forStatement (g : Grammar) : Parser Node :=
  let ended (field : String) (mark : Parser Node) :=
    seq [next (inField field (enclosed (g .expressions))), next mark] <|>
      next (inField field emptyStatement)
  phrase "for_statement" (seq [one (keyword "for"), next (punct "("),
    next (inField "initializer" (lexicalDeclaration g false <|> variableDeclaration g)) <|>
      ended "initializer" (punct ";"),
    ended "condition" (inField "condition" (punct ";")),
    maybe (next (inField "increment" (enclosed (g .expressions)))), next (punct ")"),
    bodyIn g "body"])

/-- A loop with its condition in front. -/
def whileStatement (g : Grammar) : Parser Node :=
  phrase "while_statement" (seq [one (keyword "while"), conditionIn g "condition",
    bodyIn g "body"])

/-- A loop with its condition behind. -/
def doStatement (g : Grammar) : Parser Node :=
  phrase "do_statement" (seq [one (keyword "do"), bodyIn g "body", next (keyword "while"),
    conditionIn g "condition", maybe (semicolon false)])

/-- A block whose errors are caught. -/
def tryStatement (g : Grammar) : Parser Node :=
  phrase "try_statement" (seq [one (keyword "try"), next (inField "body" (g (.block false))),
    maybe (next (inField "handler" (phrase "catch_clause" (seq [one (keyword "catch"),
      maybe (seq [next (punct "("), next (inField "parameter" (binding g)), next (punct ")")]),
      next (inField "body" (g (.block false)))])))),
    maybe (next (inField "finalizer" (phrase "finally_clause" (seq [one (keyword "finally"),
      next (inField "body" (g (.block false)))]))))])

/-- A statement that makes the properties of an object names. -/
def withStatement (g : Grammar) : Parser Node :=
  phrase "with_statement" (seq [one (keyword "with"), conditionIn g "object", bodyIn g "body"])

/-- A jump, with the label it goes to. -/
def jumpStatement (kind keywordText : String) : Parser Node :=
  phrase kind (do
    let k ← keyword keywordText
    let label ← if ← endsHere false then pure []
      else maybe (next (inField "label" (nameOf "statement_identifier")))
    return k :: label ++ (← semicolon false))

/-- A return, with its value. -/
def returnStatement (g : Grammar) : Parser Node :=
  phrase "return_statement" (do
    let k ← keyword "return"
    let value ← if ← endsHere false then pure [] else maybe (next (g .expressions))
    return k :: value ++ (← semicolon !value.isEmpty))

/-- A throw. -/
def throwStatement (g : Grammar) : Parser Node :=
  phrase "throw_statement" (seq [one (keyword "throw"), next (g .expressions), semicolon true])

/-- A statement with a label. -/
def labeledStatement (g : Grammar) : Parser Node :=
  phrase "labeled_statement" (seq [one (inField "label" (nameOf "statement_identifier")),
    next (punct ":"), bodyIn g "body"])

/-- Expressions as a statement. -/
def expressionStatement (g : Grammar) : Parser Node :=
  phrase "expression_statement" (seq [one (g .expressions), semicolon true])

/-! ## Statements -/

/-- Statements with the comments in front of them. -/
def statements (g : Grammar) : Parser (List Node) :=
  many (do
    let cs ← statementComments
    return cs ++ [← unenclosed (g .statement)])

/-- A block of statements. `value` says that a value may end with it. -/
def blockRule (g : Grammar) (value : Bool) : Parser Node :=
  phrase "statement_block" (seq [one (punct "\x7b"), statements g, do
    let cs ← statementComments
    return cs ++ [← punct "\x7d"], declarationEnd value])

/-- A statement, told by its first word or character. -/
def statementRule (g : Grammar) : Parser Node := do
  match ← peek with
  | none => failure
  | some ';' => emptyStatement
  | some '@' => exportStatement g <|> classDeclaration g true <|> expressionStatement g
  | some c =>
    if c == Text.openBrace then blockRule g false <|> expressionStatement g
    else match ← word with
      | "export" => exportStatement g
      | "import" => importStatement g <|> expressionStatement g
      | "if" => ifStatement g
      | "switch" => switchStatement g
      | "for" => forInStatement g <|> forStatement g
      | "while" => whileStatement g
      | "do" => doStatement g
      | "try" => tryStatement g
      | "with" => withStatement g
      | "break" => jumpStatement "break_statement" "break"
      | "continue" => jumpStatement "continue_statement" "continue"
      | "debugger" =>
        phrase "debugger_statement" (seq [one (keyword "debugger"), semicolon false])
      | "return" => returnStatement g
      | "throw" => throwStatement g
      | "" => expressionStatement g
      | _ => declaration g true <|> labeledStatement g <|> expressionStatement g

end HeaderCatalog.Script.Parser
