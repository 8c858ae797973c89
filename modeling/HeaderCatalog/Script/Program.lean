import HeaderCatalog.Script.Statement

/-!
# HeaderCatalog.Script.Program — sources into syntax trees

`Script.read` gives a tree for every source. Where the source goes on with something that is no
statement, the rest of it is one error node, and the program says that it holds an error.
-/

namespace HeaderCatalog.Script

/-- The rule of each phrase. -/
def Grammar.rule (g : Grammar) : Grammar
  | .statement => Parser.statementRule g
  | .block value => Parser.blockRule g value
  | .expressions => Parser.expressionsRule g
  | .expression => Parser.expressionRule g
  | .binary level => Parser.binaryRule g level
  | .unary => Parser.unaryRule g
  | .pattern => Parser.patternRule g
  | .element => Parser.element g

/-- The readers of phrases that are nested at most `depth` deep. -/
def Grammar.ofDepth : (depth : Nat) → Grammar
  | 0 => fun _ => failure
  | depth + 1 => fun phrase => Parser.remembered phrase ((ofDepth depth).rule phrase)

/-- A bound on the nesting of phrases: none nests more than a few times without taking up a
character. -/
def maxDepth (s : Source) : Nat := 8 * s.size + 16

namespace Parser

/-- The line that names the interpreter of a script. -/
def interpreterLine : Parser Node :=
  leaf "hash_bang_line" true fun s p =>
    if s.has p "#!" then some (s.skipWhile (· != '\n') p) else none

/-- The statements of a program up to the end of the source or to the first thing that is none,
with the place where they end. -/
def programParts (g : Grammar) : Parser (List Node) := do
  let line ← maybe (next interpreterLine)
  let body ← statements g
  let trailing ← statementComments
  return line ++ body ++ trailing

end Parser

/-- The syntax tree of a source. The program starts at its first token. -/
def read (text : Text) : Node :=
  let s := Source.ofText text
  let g := Grammar.ofDepth (maxDepth s)
  let (parts, _) := Parser.programParts g |>.run ⟨s, false⟩ |>.run 0 |>.run |>.run ∅
  let (children, stop) := parts.getD ([], 0)
  let start := s.skipWhile isSpace 0
  if stop = s.size then s.node "program" true start s.size children
  else
    let rest := { s.node "ERROR" true stop s.size [] with isError := true, hasError := true }
    { s.node "program" true start s.size (children ++ [rest]) with hasError := true }

end HeaderCatalog.Script
