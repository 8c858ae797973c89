import HeaderCatalog.Script.Lexeme
import Std.Data.HashMap

/-!
# HeaderCatalog.Script.Parser — reading phrases into nodes

A parser goes from a place in a source to a result and the place behind it, or fails. A phrase
starts at its first token; the comments between its parts are its children too, and those
behind its last part are left to the phrase around it. So `next` takes the comments in front of
a part together with the part, and gives both back if the part is not there.

A rule that fails is followed by others that may read the same phrases again. `remembered` keeps
what was read of a phrase at a place, so that no phrase is read twice at the same place.
-/

namespace HeaderCatalog.Script

/-- The phrases that rules refer to. -/
inductive Phrase where
  | statement
  /-- Statements between braces. The flag says that they are the body of something that could
  stand for a value. -/
  | block (value : Bool)
  /-- One expression, or several with commas between them. -/
  | expressions
  | expression
  /-- Operands joined by operators that bind at least as tightly as the level says. -/
  | binary (level : Nat)
  /-- An operand with the operators in front of it. -/
  | unary
  /-- The target of a declaration, parameter or assignment. -/
  | pattern
  /-- A markup element. -/
  | element
deriving DecidableEq, Repr, Inhabited, Hashable

/-- What is read, and whether brackets or the like stand around the present place, so that no
statement can end there. -/
structure Scope where
  source : Source
  enclosed : Bool
deriving Inhabited

/-- A phrase at a place. -/
structure Spot where
  phrase : Phrase
  place : Nat
  enclosed : Bool
deriving DecidableEq, Repr, Inhabited, Hashable

/-- The phrases that were looked for so far: those that were found, with the places behind them,
and those that were not. -/
abbrev Memory := Std.HashMap Spot (Option (Node × Nat))

/-- A reader of a source that may fail, and then has read nothing. -/
abbrev Parser := ReaderT Scope (StateT Nat (OptionT (StateM Memory)))

namespace Parser

/-- The source that is read. -/
def source : Parser Source := do
  return (← read).source

/-- Read something that stands between brackets. -/
def enclosed {α : Type} (p : Parser α) : Parser α :=
  withReader (fun scope => { scope with enclosed := true }) p

/-- Read something that holds statements of its own. -/
def unenclosed {α : Type} (p : Parser α) : Parser α :=
  withReader (fun scope => { scope with enclosed := false }) p

/-- Read a phrase, unless it was looked for at this place before. -/
def remembered (phrase : Phrase) (p : Parser Node) : Parser Node := do
  let spot : Spot := ⟨phrase, ← get, (← read).enclosed⟩
  let remember (found : Option (Node × Nat)) : Parser Unit :=
    modifyThe Memory (·.insert spot found)
  match (← getThe Memory)[spot]? with
  | some (some (n, stop)) =>
    set stop
    return n
  | some none => failure
  | none =>
    (do
      let n ← p
      remember (some (n, ← get))
      return n) <|> (do
      remember none
      failure)

/-! ## Lexemes -/

/-- Succeed only if the condition holds. -/
def check (condition : Bool) : Parser Unit :=
  if condition then pure () else failure

/-- Ask something of the source at the present place. -/
def asks {α : Type} (question : Source → Nat → α) : Parser α := do
  return question (← source) (← get)

/-- A lexeme as a node without children. -/
def leaf (kind : String) (named : Bool) (scan : Source → Nat → Option Nat) : Parser Node := do
  let s ← source
  let start ← get
  match scan s start with
  | none => failure
  | some stop =>
    set stop
    return s.node kind named start stop []

/-- Punctuation. -/
def punct (mark : String) : Parser Node :=
  leaf mark false fun s p => if s.has p mark then some (p + mark.length) else none

/-- A word that is a keyword here. -/
def keyword (word : String) : Parser Node :=
  leaf word false fun s p => if s.nameAt p == word then some (p + word.length) else none

/-- A word that is a keyword here and stands for a construct by itself. -/
def namedWord (word : String) : Parser Node :=
  leaf word true fun s p => if s.nameAt p == word then some (p + word.length) else none

/-- The words that name nothing. -/
def reservedWords : List String :=
  ["break", "case", "catch", "class", "const", "continue", "debugger", "default", "delete", "do",
    "else", "export", "extends", "false", "finally", "for", "function", "if", "import", "in",
    "instanceof", "new", "null", "return", "super", "switch", "this", "throw", "true", "try",
    "typeof", "var", "void", "while", "with"]

/-- A name that is not a reserved word, as a node of the given kind. -/
def nameOf (kind : String) : Parser Node :=
  leaf kind true fun s p =>
    match s.name? p with
    | some q => if reservedWords.contains (s.nameAt p) then none else some q
    | none => none

/-- An identifier. -/
def identifier : Parser Node := nameOf "identifier"

/-- Any word as the name of a property. -/
def propertyName : Parser Node := leaf "property_identifier" true Source.name?

/-- The private name of a class member. -/
def privateName : Parser Node :=
  leaf "private_property_identifier" true fun s p =>
    if s.has p "#" then s.name? (p + 1) else none

/-! ## Comments -/

/-- May a comment in the style of markup stand behind the present place? Not where an operand or
a statement has just ended. -/
def markupAllowed (s : Source) (p : Nat) : Bool :=
  p == 0 || s.isAt (p - 1) (";\x7b(,:[=&|!?".toList.contains ·)

/-- Skip white space and collect comments, up to the next token. -/
def commentsFrom (markup : Source → Nat → Bool) : (fuel : Nat) → Parser (List Node)
  | 0 => pure []
  | fuel + 1 => do
    let s ← source
    let p := s.skipWhile isSpace (← get)
    match s.comment? p with
    | some q =>
      set q
      return s.node "comment" true p q [] :: (← commentsFrom markup fuel)
    | none =>
      match if markup s p then s.markupComment? p else none with
      | some q =>
        set q
        return s.node "html_comment" true p q [] :: (← commentsFrom markup fuel)
      | none =>
        set p
        return []

/-- The comments in front of the next token. -/
def comments : Parser (List Node) := do
  let s ← source
  let p ← get
  let allowed := markupAllowed s p
  commentsFrom (fun _ _ => allowed) (s.size - p + 1)

/-- The comments in front of the next statement. A line that starts with `-->` is one. -/
def statementComments : Parser (List Node) := do
  let s ← source
  let p ← get
  let allowed := markupAllowed s p
  commentsFrom (fun s q => allowed || (s.has q "-->" && (s.text p q).any isNewline))
    (s.size - p + 1)

/-! ## Parts of phrases -/

/-- The next part with the comments in front of it. -/
def next (p : Parser Node) : Parser (List Node) := do
  let cs ← comments
  return cs ++ [← p]

/-- The next parts with the comments in front of them. -/
def nexts (p : Parser (List Node)) : Parser (List Node) := do
  let cs ← comments
  return cs ++ (← p)

/-- A part that may be left out. -/
def maybe (p : Parser (List Node)) : Parser (List Node) :=
  p <|> pure []

/-- Repeat parts as long as they are there and take something up. -/
def repeated (p : Parser (List Node)) : (fuel : Nat) → Parser (List Node)
  | 0 => pure []
  | fuel + 1 => (do
      let start ← get
      let part ← p
      check (start < (← get))
      return part ++ (← repeated p fuel)) <|> pure []

/-- Any number of parts. -/
def many (p : Parser (List Node)) : Parser (List Node) := do
  repeated p ((← source).size + 1)

/-- Would this part come next, behind any comments? -/
def follows {α : Type} (p : Parser α) : Parser Bool := do
  let start ← get
  let found ← (do let _ ← comments; let _ ← p; pure true) <|> pure false
  set start
  return found

/-- A phrase of the given kind with these parts. -/
def phrase (kind : String) (parts : Parser (List Node)) : Parser Node := do
  let start ← get
  let children ← parts
  return (← source).node kind true start (← get) children

/-- A part in a field of the phrase around it. -/
def inField (name : String) (p : Parser Node) : Parser Node := do
  return { (← p) with field := some name }

/-- Parts in sequence. -/
def seq : List (Parser (List Node)) → Parser (List Node)
  | [] => pure []
  | p :: rest => do return (← p) ++ (← seq rest)

/-- Items with commas between them; the items may be missing. -/
def commaHoles (item : Parser Node) : Parser (List Node) := do
  let first ← maybe (next item)
  return first ++ (← many (do return (← next (punct ",")) ++ (← maybe (next item))))

/-- Items with commas between them, at least one. -/
def commaSome (item : Parser Node) : Parser (List Node) := do
  let first ← next item
  return first ++ (← many (do return (← next (punct ",")) ++ (← next item)))

/-! ## The ends of statements -/

/-- Does the statement end here without a semicolon, perhaps behind a comment? -/
def endsHere (operand : Bool) : Parser Bool := do
  let s ← source
  if (← read).enclosed then return false
  let rec go : Nat → Nat → Bool
    | 0, _ => false
    | fuel + 1, p =>
      s.endsStatement operand p ||
        match s.comment? (s.skipWhile isSpace p) with
        | some q => go fuel q
        | none => false
  return go (s.size + 1) (← get)

/-- The end of a statement that is not marked: nothing, or the comments in front of the place
where the statement ends. -/
def unmarkedEnd (operand : Bool) : (fuel : Nat) → Parser (List Node)
  | 0 => failure
  | fuel + 1 => do
    let s ← source
    let p ← get
    if s.endsStatement operand p then return []
    else
      let q := s.skipWhile isSpace p
      match s.comment? q with
      | some r =>
        set r
        return s.node "comment" true q r [] :: (← unmarkedEnd operand fuel)
      | none => failure

/-- The end of a declaration that takes no semicolon. -/
def declarationEnd (operand : Bool) : Parser (List Node) := do
  maybe (unmarkedEnd operand ((← source).size + 1))

/-- The end of a statement: a semicolon, or nothing where it may be left out. `operand` says that
an expression ends here. -/
def semicolon (operand : Bool) : Parser (List Node) := do
  unmarkedEnd operand ((← source).size + 1) <|> next (punct ";")

end Parser

end HeaderCatalog.Script
