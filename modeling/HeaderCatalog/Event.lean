import HeaderCatalog.Fault

/-!
# HeaderCatalog.Event — what a run reports about its decisions

Every decision that a reader of the catalogue may want to know about is an event: what was
found, and what was left out and why. `Event.render` is the one place that words them.
-/

namespace HeaderCatalog

/-- A decision worth reporting. Kinds and names are those of the entity spoken of. -/
inductive Event where
  /-- The parser met an error at a row (from one) and column. -/
  | parseFailed (detail : String) (row column : Nat)
  /-- The tree has kinds of nodes that the slot table does not cover. -/
  | gaps (counts : List (String × Nat))
  /-- Discovery found this many entities. -/
  | discovered (count : Nat)
  /-- A parameter of an entity is not a plain name. -/
  | noPattern (kind : String) (parameter : Text)
  /-- An entity is skipped since its header is not described by names alone. -/
  | unmodelled (kind : String) (name : Text)
  /-- No header of a class stands in the text. -/
  | classNotFound (name : Option Text)
  /-- A method is skipped since its class is not found. -/
  | methodWithoutClass (name : Text) (enclosing : Option Text)
  /-- A class name comes a second time. -/
  | classAgain (name : Text)
  /-- An entity is skipped since its header stands nowhere. -/
  | noMatch (kind : String) (name : Text) (pattern : Text)
  /-- The catalogue holds this many of the entities. -/
  | located (count total : Nat)
deriving DecidableEq, Repr, Inhabited

namespace Event

/-- A class name in a message; a class of an odd tree may have none. -/
def className : Option Text → String
  | some name => String.ofList name
  | none => "None"

/-- The message of a class that is not found. -/
def classNotFoundMessage (name : Option Text) : String :=
  "Class '" ++ className name ++ "' not found in source text"

/-- Kinds with their counts, in braces. -/
def renderCounts (counts : List (String × Nat)) : String :=
  "\x7b" ++ ", ".intercalate (counts.map fun (k, n) => "'" ++ k ++ "': " ++ toString n) ++ "\x7d"

/-- An event in words, with the part of the program that reports it in front. -/
def render : Event → String
  | parseFailed detail row column =>
    "jsscribe.parsers.javascript_parser: Parse failed: " ++ detail ++ " at " ++ toString row
      ++ ":" ++ toString column
  | gaps counts =>
    "jsscribe.parsers.javascript_parser: Node kinds missing from the child table: "
      ++ renderCounts counts
  | discovered count =>
    "jsscribe.discovery: Discovered " ++ toString count ++ " documentable entities"
  | noPattern kind parameter =>
    "jsscribe.patterns: No header pattern for " ++ kind ++ ": "
      ++ String.ofList (Fault.parameterMessage parameter)
  | unmodelled kind name =>
    "jsscribe.metadata: Skipping " ++ kind ++ " '" ++ String.ofList name
      ++ "': header cannot be modelled"
  | classNotFound name => "jsscribe.locate: " ++ classNotFoundMessage name
  | methodWithoutClass name enclosing =>
    "jsscribe.metadata: Skipping method '" ++ String.ofList name ++ "': class '"
      ++ className enclosing ++ "' not found"
  | classAgain name =>
    "jsscribe.metadata: Class '" ++ String.ofList name
      ++ "' declared again, methods reuse the first body"
  | noMatch kind name pattern =>
    "jsscribe.metadata: Skipping " ++ kind ++ " '" ++ String.ofList name ++ "': no match for "
      ++ String.ofList pattern
  | located count total =>
    "jsscribe.metadata: Located " ++ toString count ++ " of " ++ toString total ++ " entities"

end Event

end HeaderCatalog
