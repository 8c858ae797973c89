import HeaderCatalog.Script.Function
import HeaderCatalog.Script.Markup

/-!
# HeaderCatalog.Script.Expression — expressions and patterns

Operators are read by level: a level joins operands of the levels above it. An assignment is an
operand, since its target is one and its value reaches as far as an expression can. Brackets and
braces are read as values first and as patterns if an equals sign follows; parentheses are read
as a value first and as parameters if an arrow follows.
-/

namespace HeaderCatalog.Script.Parser

/-! ## Objects and arrays -/

/-- A part of an object. -/
def objectMember (g : Grammar) : Parser Node :=
  spread g <|> method g false <|>
    phrase "pair" (seq [one (inField "key" (propertyKey g)), next (punct ":"),
      next (inField "value" (g .expression))]) <|>
    nameOf "shorthand_property_identifier"

/-- An object between braces. -/
def object (g : Grammar) : Parser Node :=
  phrase "object" (seq [one (punct "\x7b"), commaHoles (enclosed (objectMember g)),
    next (punct "\x7d")])

/-- An array between brackets. -/
def array (g : Grammar) : Parser Node :=
  phrase "array" (seq [one (punct "["), commaHoles (enclosed (spread g <|> g .expression)),
    next (punct "]")])

/-! ## Operands -/

/-- What a word stands for at the start of an operand. -/
def wordOperand (g : Grammar) : Parser Node := do
  match ← word with
  | "function" => functionExpression g
  | "class" => classExpression g
  | "async" => functionExpression g <|> bareArrow g <|> listArrow g <|> identifier
  | "this" => namedWord "this"
  | "super" => namedWord "super"
  | "null" => namedWord "null"
  | "true" => namedWord "true"
  | "false" => namedWord "false"
  | "undefined" => namedWord "undefined"
  | "import" =>
    phrase "meta_property" (seq [one (keyword "import"), next (mark "."), next (keyword "meta")])
      <|> (do
        let n ← phrase "import" (one (keyword "import"))
        check (← follows (punct "("))
        return n)
  | _ => if ← follows (do let _ ← identifier; next (mark "=>")) then bareArrow g else identifier

/-- A value in parentheses, or the arrow function whose parameters they hold. -/
def parenthesis (g : Grammar) : Parser Node :=
  (do
    let n ← parenthesized g
    check !(← follows (mark "=>"))
    return n) <|> listArrow g

/-- The smallest operands. -/
def primary (g : Grammar) : Parser Node := do
  match ← peek with
  | none => failure
  | some c =>
    if c == '(' then parenthesis g
    else if c == '[' then array g
    else if c == Text.openBrace then object g
    else if c == '"' || c == '\'' then string
    else if c == '`' then template g
    else if c == '/' then regex
    else if c == '<' then g .element
    else if c == '@' then classExpression g
    else if c == '#' then do
      let n ← privateName
      check (← follows (keyword "in"))
      return n
    else if c.isDigit || c == '.' then number
    else wordOperand g

/-- A property, an index, arguments or a template behind an operand. Arguments and templates are
left alone behind the operand of `new`. -/
def suffix (g : Grammar) (calls : Bool) (start : Nat) (operand : Node) : Parser Node := do
  let before ← comments
  let chain : Parser (List Node) :=
    one (inField "optional_chain" (leaf "optional_chain" true fun s p =>
      if markAt s p == "?." then some (p + 2) else none))
  let property := one (inField "property" (privateName <|> propertyName))
  let index := seq [one (punct "["), next (inField "index" (enclosed (g .expressions))),
    next (punct "]")]
  let call := one (inField "arguments" (arguments g))
  let extend (kind field : String) (parts : Parser (List Node)) : Parser Node :=
    extended kind start (fielded field operand) (do return before ++ (← parts))
  match ← asks markAt with
  | "." => extend "member_expression" "object" (seq [one (mark "."), nexts property])
  | "?." =>
    extend "subscript_expression" "object" (seq [chain, nexts index]) <|>
      extend "call_expression" "function" (seq [chain, nexts call]) <|>
      extend "member_expression" "object" (seq [chain, nexts property])
  | _ =>
    match ← peek with
    | some '[' => extend "subscript_expression" "object" index
    | some '(' => do check calls; extend "call_expression" "function" call
    | some '`' => do
      check calls
      extend "call_expression" "function" (one (inField "arguments" (template g)))
    | _ => failure

/-- All suffixes behind an operand. -/
def suffixes (g : Grammar) (calls : Bool) (start : Nat) : (fuel : Nat) → Node → Parser Node
  | 0, n => pure n
  | fuel + 1, n => do
    match ← (some <$> suffix g calls start n) <|> pure none with
    | some n => suffixes g calls start fuel n
    | none => pure n

/-- An object made by `new`; the operand of `new` may be one itself. -/
def newExpression (g : Grammar) : (depth : Nat) → Parser Node
  | 0 => failure
  | depth + 1 =>
    phrase "meta_property" (seq [one (keyword "new"), next (mark "."), next (keyword "target")])
      <|> phrase "new_expression" (seq [one (keyword "new"),
        next (inField "constructor" (do
          let start ← get
          let n ← newExpression g depth <|> primary g
          suffixes g false start ((← source).size) n)),
        maybe (next (inField "arguments" (arguments g)))])

/-- An operand with its suffixes. The body of an arrow function takes up what could be its
suffixes. -/
def postfixed (g : Grammar) : Parser Node := do
  let start ← get
  let size := (← source).size
  let n ← if (← word) == "new" then newExpression g (size + 1) else primary g
  let isOpen :=
    n.kind == "arrow_function" && (n.fieldChild? "body").any (·.kind != "statement_block")
  if isOpen then return n else suffixes g true start size n

/-! ## Patterns -/

/-- A part of an object pattern. -/
def patternMember (g : Grammar) : Parser Node :=
  phrase "pair_pattern" (seq [one (inField "key" (propertyKey g)), next (punct ":"),
    next (inField "value" (withDefault g (g .pattern)))]) <|> (do
      let start ← get
      let target ← nameOf "shorthand_property_identifier_pattern" <|> nested
      let whole := extended "object_assignment_pattern" start (fielded "left" target)
        (seq [next (mark "="), next (inField "right" (g .expression))])
      if target.kind == "rest_pattern" then return target
      else whole <|> (do
        check (target.kind == "shorthand_property_identifier_pattern")
        return target))
where
  /-- A pattern that is not a name. -/
  nested : Parser Node := do
    let n ← g .pattern
    check (["rest_pattern", "object_pattern", "array_pattern"].contains n.kind)
    return n

/-- The kinds of operands that can be assigned to. -/
def targetKinds : List String :=
  ["identifier", "undefined", "member_expression", "subscript_expression"]

/-- The target of a declaration, parameter or assignment. -/
def patternRule (g : Grammar) : Parser Node := do
  match ← peek with
  | some '[' =>
    phrase "array_pattern" (seq [one (punct "["),
      commaHoles (enclosed (withDefault g (g .pattern))), next (punct "]")])
  | some '.' => phrase "rest_pattern" (seq [one (punct "..."), next (g .pattern)])
  | some c =>
    if c == Text.openBrace then
      phrase "object_pattern" (seq [one (punct "\x7b"), commaHoles (enclosed (patternMember g)),
        next (punct "\x7d")])
    else do
      let n ← postfixed g
      check (targetKinds.contains n.kind)
      return n
  | none => failure

/-! ## Assignments and operators -/

/-- The operators that assign after computing. -/
def augmentedMarks : List String :=
  ["+=", "-=", "*=", "/=", "%=", "^=", "&=", "|=", ">>=", ">>>=", "<<=", "**=", "&&=", "||=", "??="]

/-- The assignment of a value to a target that has been read. -/
def assignTo (g : Grammar) (start : Nat) (target : Node) : Parser Node :=
  extended "assignment_expression" start (fielded "left" target)
    (seq [next (mark "="), next (inField "right" (g .expression))])

/-- The assignment of a computed value to a target that has been read. -/
def computeInto (g : Grammar) (start : Nat) (target : Node) : Parser Node := do
  let before ← comments
  let m ← asks markAt
  check (augmentedMarks.contains m)
  extended "augmented_assignment_expression" start (fielded "left" target)
    (do return before ++ (← seq [one (inField "operator" (mark m)),
      next (inField "right" (g .expression))]))

/-- An operand whose step up or down stands behind it, if the statement does not end between
them. -/
def stepBehind (start : Nat) (operand : Node) : Parser Node := do
  check !(← endsHere true)
  let before ← comments
  extended "update_expression" start (fielded "argument" operand)
    (do return before ++ (← one (inField "operator" (mark "++" <|> mark "--"))))

/-- An operand, or an assignment to it. -/
def operand (g : Grammar) : Parser Node := do
  let start ← get
  let destructured : Parser Node := do
    set start
    let c ← peek
    check (c == some '[' || c == some Text.openBrace)
    assignTo g start (← g .pattern)
  match ← (some <$> postfixed g) <|> pure none with
  | none => destructured
  | some n =>
    if n.kind == "array" || n.kind == "object" then
      if ← follows (mark "=") then destructured else return n
    else if targetKinds.contains n.kind || n.kind == "parenthesized_expression" then
      assignTo g start n <|> computeInto g start n <|> stepBehind start n <|> pure n
    else stepBehind start n <|> pure n

/-- A value that a generator hands out. -/
def yieldExpression (g : Grammar) : Parser Node :=
  phrase "yield_expression" (seq [one (keyword "yield"), do
    if ← endsHere true then return []
    else maybe (seq [next (punct "*"), next (g .expression)] <|> next (g .expression))])

/-- An operator in front of an operand. -/
def unaryRule (g : Grammar) : Parser Node := do
  let withOperator (kind : String) (op : Parser Node) : Parser Node :=
    phrase kind (seq [one (inField "operator" op), next (inField "argument" (g .unary))])
  match ← asks markAt with
  | "++" => withOperator "update_expression" (mark "++")
  | "--" => withOperator "update_expression" (mark "--")
  | "+" => withOperator "unary_expression" (mark "+")
  | "-" => withOperator "unary_expression" (mark "-")
  | "!" => withOperator "unary_expression" (mark "!")
  | "~" => withOperator "unary_expression" (mark "~")
  | _ =>
    match ← word with
    | "typeof" => withOperator "unary_expression" (keyword "typeof")
    | "void" => withOperator "unary_expression" (keyword "void")
    | "delete" => withOperator "unary_expression" (keyword "delete")
    | "await" =>
      phrase "await_expression" (seq [one (keyword "await"), next (g .unary)]) <|> operand g
    | "yield" => yieldExpression g
    | _ => operand g

/-- How tightly an operator binds; higher levels bind more tightly. -/
def operatorLevel (op : String) : Option Nat :=
  [("??", 1), ("||", 2), ("&&", 3), ("|", 4), ("^", 5), ("&", 6), ("==", 7), ("!=", 7), ("===", 7),
    ("!==", 7), ("<", 8), (">", 8), ("<=", 8), (">=", 8), ("in", 8), ("instanceof", 8), ("<<", 9),
    (">>", 9), (">>>", 9), ("+", 10), ("-", 10), ("*", 11), ("/", 11), ("%", 11),
    ("**", 12)].lookup op

/-- The operator at the present place with its level. -/
def binaryOperator (level : Nat) : Parser (Node × Nat) := do
  let m ← asks markAt
  let w ← word
  let op := if m.isEmpty then w else m
  match operatorLevel op with
  | none => failure
  | some l =>
    check (level ≤ l)
    let n ← inField "operator" (if m.isEmpty then keyword op else mark op)
    return (n, l)

/-- Go on with operators behind a left operand. -/
def binaryTail (g : Grammar) (level start : Nat) : (fuel : Nat) → Node → Parser Node
  | 0, left => pure left
  | fuel + 1, left => do
    let joined : Parser Node := do
      let before ← comments
      let (op, l) ← binaryOperator level
      let right ← next (inField "right" (g (.binary (if l = 12 then l else l + 1))))
      return (← source).node "binary_expression" true start (← get)
        (fielded "left" left :: before ++ [op] ++ right)
    match ← (some <$> joined) <|> pure none with
    | some n => binaryTail g level start fuel n
    | none => pure left

/-- Operands joined by operators of a level or above. -/
def binaryRule (g : Grammar) (level : Nat) : Parser Node := do
  let start ← get
  let left ← g .unary
  binaryTail g level start ((← source).size) left

/-- An expression: joined operands, or a choice between two values. -/
def expressionRule (g : Grammar) : Parser Node := do
  let start ← get
  let condition ← g (.binary 1)
  extended "ternary_expression" start (fielded "condition" condition)
    (seq [next (mark "?"), next (inField "consequence" (enclosed (g .expression))),
      next (punct ":"), next (inField "alternative" (g .expression))]) <|> pure condition

/-- Expressions with commas between them. -/
def expressionsRule (g : Grammar) : Parser Node := do
  let start ← get
  let first ← g .expression
  let more ← many (seq [next (punct ","), next (g .expression)])
  if more.isEmpty then return first
  else return (← source).node "sequence_expression" true start (← get) (first :: more)

end HeaderCatalog.Script.Parser
