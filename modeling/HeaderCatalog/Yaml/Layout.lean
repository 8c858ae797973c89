import HeaderCatalog.Yaml.Lexeme

/-!
# HeaderCatalog.Yaml.Layout — a YAML text into tokens

Outside of brackets, indentation makes the blocks. A key of a block is told by the colon behind
it, so whatever may be a key is remembered with the number of tokens in front of it, and the
colon puts the key token, and the start of the block if it is a new one, in front of it. Such a
key has to fit on one line and into 1024 characters.
-/

namespace HeaderCatalog.Yaml

/-- Something that is a key if a colon follows. It has to be one if `required`. -/
structure PossibleKey where
  flow : Nat
  tokensBefore : Nat
  required : Bool
  index : Nat
  line : Nat
  column : Nat
deriving Repr, Inhabited

/-- What is known when a text has been read up to a place. `indent` is the indentation of the
present block, which is `-1` outside of all blocks, and `flow` counts the open brackets. -/
structure Layout where
  place : Place
  tokens : List Token
  flow : Nat
  indent : Int
  indents : List Int
  keyAllowed : Bool
  keys : List PossibleKey
deriving Repr, Inhabited

namespace Layout

/-- The state at the start of a text. -/
def start (text : Text) : Layout := ⟨.start text, [], 0, -1, [], true, []⟩

/-- Add tokens. -/
def push (l : Layout) (ts : List Token) : Layout := { l with tokens := l.tokens ++ ts }

/-- Run a reader at the present place. -/
def lift {α : Type} (l : Layout) (r : Reader α) : Option (α × Layout) :=
  (r.run l.place).map fun (a, place) => (a, { l with place })

/-- Go forward by some characters. -/
def skip (l : Layout) (n : Nat) : Layout := { l with place := l.place.forwards n }

/-! ## Blocks -/

/-- Close the blocks that are indented further than a column. -/
def closeBlocks (l : Layout) (column : Int) : Layout :=
  if l.flow ≠ 0 then l else go l.indent l.indents l
where
  /-- Close the innermost block and go on with those around it. -/
  go (indent : Int) : List Int → Layout → Layout
    | [], l => { l with indent, indents := [] }
    | outer :: rest, l =>
      if column < indent then go outer rest (l.push [.blockEnd])
      else { l with indent, indents := outer :: rest }

/-- Open a block at a column if it is indented further than the present one. -/
def openBlock (l : Layout) (column : Nat) : Option Layout :=
  if l.indent < column then
    some { l with indent := column, indents := l.indent :: l.indents }
  else none

/-- Open a block at a column, with this token as its start, if none is open there. -/
def startBlock (l : Layout) (column : Nat) (token : Token) : Layout :=
  match l.openBlock column with
  | some l => l.push [token]
  | none => l

/-! ## Possible keys -/

/-- Forget the possible keys that are too far behind; none of them may be required. -/
def dropStale (l : Layout) : Option Layout :=
  let fresh (k : PossibleKey) := k.line == l.place.line && l.place.index - k.index ≤ 1024
  if l.keys.any fun k => !fresh k && k.required then none
  else some { l with keys := l.keys.filter fresh }

/-- Forget the possible key at the present depth of brackets, which may not be required. -/
def dropKey (l : Layout) : Option Layout :=
  if l.keys.any fun k => k.flow == l.flow && k.required then none
  else some { l with keys := l.keys.filter (·.flow != l.flow) }

/-- What comes next may be a key. -/
def saveKey (l : Layout) : Option Layout :=
  if l.keyAllowed then do
    let required := l.flow == 0 && l.indent == l.place.column
    let l' ← l.dropKey
    return { l' with keys := ⟨l.flow, l.tokens.length, required, l.place.index, l.place.line,
      l.place.column⟩ :: l'.keys }
  else some l

/-! ## Tokens -/

/-- Skip white space and comments. A new line may start with a key, unless brackets are open. -/
def skipBlank (l : Layout) : (fuel : Nat) → Layout
  | 0 => l
  | fuel + 1 =>
    let line : Reader (Option Text) := do
      Reader.spaces
      if (← Reader.peek) == some '#' then
        let _ ← Reader.takeWhile (!isBreak ·)
      if (← Reader.peek).any isBreak then return some (← Reader.lineBreak)
      else return none
    match l.lift line with
    | some (some _, l) => skipBlank { l with keyAllowed := l.keyAllowed || l.flow == 0 } fuel
    | some (none, l) => l
    | none => l

/-- A directive, or a line that starts or ends a document: all blocks end in front of it. -/
def atDocumentLevel (l : Layout) : Option Layout := do
  let l ← (l.closeBlocks (-1)).dropKey
  return { l with keyAllowed := false }

/-- The start of a collection in brackets. -/
def openFlow (l : Layout) (token : Token) : Option Layout := do
  let l ← l.saveKey
  return ({ l with flow := l.flow + 1, keyAllowed := true }.skip 1).push [token]

/-- The end of a collection in brackets. -/
def closeFlow (l : Layout) (token : Token) : Option Layout := do
  let l ← l.dropKey
  if l.flow = 0 then none
  else return ({ l with flow := l.flow - 1, keyAllowed := false }.skip 1).push [token]

/-- A comma. -/
def flowEntry (l : Layout) : Option Layout := do
  let l ← { l with keyAllowed := true }.dropKey
  return (l.skip 1).push [.flowEntry]

/-- A dash or question mark that starts an entry of a block. -/
def blockIndicator (l : Layout) (start token : Token) (keyAllowed : Bool) : Option Layout := do
  if l.flow = 0 && !l.keyAllowed then none
  else
    let l := if l.flow = 0 then l.startBlock l.place.column start else l
    let l ← { l with keyAllowed }.dropKey
    return (l.skip 1).push [token]

/-- A colon behind a key that was told by nothing else. -/
def valueOfKey (l : Layout) (k : PossibleKey) : Layout :=
  let l := { l with keys := l.keys.filter (·.flow != l.flow), keyAllowed := false }
  let (l, inserted) :=
    if l.flow = 0 then
      match l.openBlock k.column with
      | some l => (l, [Token.blockMappingStart, .key])
      | none => (l, [.key])
    else (l, [.key])
  let tokens := l.tokens.take k.tokensBefore ++ inserted ++ l.tokens.drop k.tokensBefore
  ({ l with tokens }.skip 1).push [.value]

/-- A colon. -/
def value (l : Layout) : Option Layout :=
  match l.keys.find? (·.flow == l.flow) with
  | some k => some (l.valueOfKey k)
  | none => l.blockIndicator .blockMappingStart .value (l.flow == 0)

/-- Something that is read by a reader and may be a key. -/
def keyLike (l : Layout) (r : Reader Token) : Option Layout := do
  let l ← l.saveKey
  let (token, l) ← { l with keyAllowed := false }.lift r
  return l.push [token]

/-- A block scalar. -/
def blockScalar (l : Layout) (fold : Bool) : Option Layout := do
  let l ← { l with keyAllowed := true }.dropKey
  let (text, l) ← l.lift (Reader.blockScalar fold l.indent)
  return l.push [.scalar text false]

/-- A plain scalar. If it is followed by a new line, that line may start with a key. -/
def plain (l : Layout) : Option Layout := do
  let l ← l.saveKey
  let ((text, broken), l) ← l.lift (Reader.plain (l.flow != 0) l.indent)
  return { l with keyAllowed := broken }.push [.scalar text true]

/-- May a plain scalar start here? -/
def plainStarts (l : Layout) : Bool :=
  match l.place.ahead 0 with
  | none => false
  | some c =>
    !(isGap c || "-?:,[]\x7b\x7d#&*!|>'\"%@`".toList.contains c) ||
      (!l.place.gapAhead 1 && (c == '-' || (l.flow == 0 && (c == '?' || c == ':'))))

/-- The next token, where `c` is the next character. -/
def token (l : Layout) (c : Char) : Option Layout :=
  let p := l.place
  let indicator := l.flow != 0 || p.gapAhead 1
  if p.column = 0 && c == '%' then do
    let l ← l.atDocumentLevel
    let (d, l) ← l.lift Reader.directive
    return l.push [.directive d]
  else if p.column = 0 && p.hasMarker "---" then do
    return ((← l.atDocumentLevel).skip 3).push [.documentStart]
  else if p.column = 0 && p.hasMarker "..." then do
    return ((← l.atDocumentLevel).skip 3).push [.documentEnd]
  else if c == '[' then l.openFlow .flowSequenceStart
  else if c == Text.openBrace then l.openFlow .flowMappingStart
  else if c == ']' then l.closeFlow .flowSequenceEnd
  else if c == Text.closeBrace then l.closeFlow .flowMappingEnd
  else if c == ',' then l.flowEntry
  else if c == '-' && p.gapAhead 1 then
    l.blockIndicator .blockSequenceStart .blockEntry true
  else if c == '?' && indicator then
    l.blockIndicator .blockMappingStart .key (l.flow == 0)
  else if c == ':' && indicator then l.value
  else if c == '*' then l.keyLike do Reader.skip 1; return .reference (← Reader.anchorName)
  else if c == '&' then l.keyLike do Reader.skip 1; return .anchor (← Reader.anchorName)
  else if c == '!' then l.keyLike do return .tag (← Reader.tag)
  else if c == '|' && l.flow == 0 then l.blockScalar false
  else if c == '>' && l.flow == 0 then l.blockScalar true
  else if c == '\'' then l.keyLike do return .scalar (← Reader.quoted false) false
  else if c == '"' then l.keyLike do return .scalar (← Reader.quoted true) false
  else if l.plainStarts then l.plain
  else none

/-- All tokens up to the end of the text. -/
def run (l : Layout) : (fuel : Nat) → Option (List Token)
  | 0 => none
  | fuel + 1 => do
    let l ← (l.skipBlank (l.place.rest.length + 1)).dropStale
    let l := l.closeBlocks l.place.column
    match l.place.rest with
    | [] => return (← (l.closeBlocks (-1)).dropKey).tokens
    | c :: _ => (← l.token c).run fuel

end Layout

/-- The tokens of a text. A byte order mark in front is skipped; a character that is not printable
makes the whole text unreadable. -/
def tokens? (text : Text) : Option (List Token) :=
  if text.all isPrintable then
    let l := Layout.start text
    let l := if text.head? == some '\ufeff' then l.skip 1 else l
    l.run (text.length + 2)
  else none

end HeaderCatalog.Yaml
