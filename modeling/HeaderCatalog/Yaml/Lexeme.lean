import HeaderCatalog.Text.Utf8
import HeaderCatalog.Yaml.Place
import HeaderCatalog.Yaml.Token

/-!
# HeaderCatalog.Yaml.Lexeme — directives, names, tags and scalars

One reader for each class of lexemes. The readers of scalars give the text that the scalar stands
for: lines are folded, escapes are replaced and block scalars lose their indentation.
-/

namespace HeaderCatalog.Yaml.Reader

/-! ## Names and tags -/

/-- The name of an anchor or alias. -/
def anchorName : Reader Text := do
  let name ← takeWhile isNameChar
  require (!name.isEmpty)
  require ((← peek).all fun c => isGap c || "?:,]\x7d%@`".toList.contains c)
  return name

/-- Characters of a tag that are written as bytes in hexadecimal. -/
def tagBytes : (fuel : Nat) → Reader Bytes
  | 0 => pure []
  | fuel + 1 => do
    if (← peek) == some '%' then
      skip 1
      let digits := (← get).rest.take 2
      require (digits.length == 2)
      match hexNumber? digits with
      | none => failure
      | some n =>
        skip 2
        return n.toUInt8 :: (← tagBytes fuel)
    else return []

/-- The text of a tag behind its handle; it may be empty. -/
def tagText : (fuel : Nat) → Reader Text
  | 0 => pure []
  | fuel + 1 => do
    match ← peek with
    | some '%' =>
      let bytes ← tagBytes (fuel + 1)
      match Utf8.decode bytes with
      | .error _ => failure
      | .ok text => return text ++ (← tagText fuel)
    | some c =>
      if isTagChar c then
        skip 1
        return c :: (← tagText fuel)
      else return []
    | none => return []

/-- The text of a tag, which is not empty unless bytes spell the empty text. -/
def tagSuffix : Reader Text := do
  let start := (← get).index
  let text ← tagText ((← get).rest.length)
  require (start < (← get).index)
  return text

/-- The handle of a tag: one exclamation mark, or a name between two. -/
def tagHandle : Reader Text := do
  expect '!'
  if (← peek) == some ' ' then return ['!']
  else
    let name ← takeWhile isNameChar
    expect '!'
    return '!' :: name ++ ['!']

/-- A tag. -/
def tag : Reader WrittenTag := do
  let p ← get
  let written ← match p.ahead 1 with
    | some '<' => do
      skip 2
      let suffix ← tagSuffix
      expect '>'
      pure ⟨none, suffix⟩
    | next =>
      if next.all isGap then do
        skip 1
        pure ⟨none, ['!']⟩
      else if ((p.rest.drop 1).takeWhile fun c => !(c == ' ' || isBreak c)).contains '!' then do
        let handle ← tagHandle
        pure ⟨some handle, ← tagSuffix⟩
      else do
        skip 1
        pure ⟨some ['!'], ← tagSuffix⟩
  require (← get).wordEnds
  return written

/-! ## Directives -/

/-- A number in a version. -/
def versionNumber : Reader Text := do
  let digits ← takeWhile Char.isDigit
  require (!digits.isEmpty)
  return digits

/-- What a directive says behind its name. -/
def directiveValue (name : Text) : Reader Directive := do
  if name == "YAML".toList then
    spaces
    let major ← versionNumber
    expect '.'
    let _ ← versionNumber
    require (← get).wordEnds
    return .version major
  else if name == "TAG".toList then
    spaces
    let handle ← tagHandle
    require ((← peek) == some ' ')
    spaces
    let meaning ← tagSuffix
    require (← get).wordEnds
    return .handle handle meaning
  else
    let _ ← takeWhile (!isBreak ·)
    return .other

/-- A directive up to the end of its line. -/
def directive : Reader Directive := do
  skip 1
  let name ← takeWhile isNameChar
  require (!name.isEmpty)
  require (← get).wordEnds
  let d ← directiveValue name
  restOfLine
  return d

/-! ## Quoted scalars -/

/-- The line breaks behind a broken line of a quoted scalar. No line may look like the end of the
document. -/
def quotedBreaks : (fuel : Nat) → Reader Text
  | 0 => pure []
  | fuel + 1 => do
    require (!(← get).atSeparator)
    let _ ← takeWhile (fun c => c == ' ' || c == '\t')
    if (← peek).any isBreak then
      let b ← lineBreak
      return b ++ (← quotedBreaks fuel)
    else return []

/-- A broken line stands for a space, and each further break for itself. -/
def folded (first breaks : Text) : Text :=
  if first != ['\n'] then first ++ breaks
  else if breaks.isEmpty then [' ']
  else breaks

/-- The characters that one letter stands for behind a backslash. -/
def escapes : List (Char × Char) :=
  [('0', '\x00'), ('a', '\x07'), ('b', '\x08'), ('t', '\t'), ('\t', '\t'), ('n', '\n'),
    ('v', '\x0b'), ('f', '\x0c'), ('r', '\r'), ('e', '\x1b'), (' ', ' '), ('"', '"'),
    ('\\', '\\'), ('/', '/'), ('N', '\u0085'), ('_', '\u00a0'), ('L', '\u2028'),
    ('P', '\u2029')]

/-- A character given by its number in so many hexadecimal digits. Numbers of half characters are
read as the replacement character. -/
def numberedChar (digits : Nat) : Reader Text := do
  let text := (← get).rest.take digits
  require (text.length == digits)
  match hexNumber? text with
  | none => failure
  | some n =>
    require (n < 0x110000)
    skip digits
    return [if 0xD800 ≤ n && n ≤ 0xDFFF then '\ufffd' else Char.ofNat n]

/-- What stands behind a backslash. -/
def escape : Reader Text := do
  skip 1
  match ← peek with
  | none => failure
  | some c =>
    match escapes.lookup c with
    | some e => skip 1; return [e]
    | none =>
      if c == 'x' then skip 1; numberedChar 2
      else if c == 'u' then skip 1; numberedChar 4
      else if c == 'U' then skip 1; numberedChar 8
      else if isBreak c then
        let _ ← lineBreak
        quotedBreaks ((← get).rest.length + 1)
      else failure

/-- The text of a quoted scalar up to its closing quote. -/
def quotedRest (double : Bool) : (fuel : Nat) → Reader Text
  | 0 => failure
  | fuel + 1 => do
    let p ← get
    match p.rest with
    | [] => failure
    | c :: _ =>
      if double && c == '"' then
        skip 1
        return []
      else if !double && c == '\'' then
        skip 1
        if (← peek) == some '\'' then
          skip 1
          return '\'' :: (← quotedRest double fuel)
        else return []
      else if double && c == '\\' then
        let e ← escape
        return e ++ (← quotedRest double fuel)
      else if c == ' ' || c == '\t' || isBreak c then
        let gap ← takeWhile (fun c => c == ' ' || c == '\t')
        match ← peek with
        | none => failure
        | some d =>
          if isBreak d then
            let b ← lineBreak
            let breaks ← quotedBreaks ((← get).rest.length + 1)
            return folded b breaks ++ (← quotedRest double fuel)
          else return gap ++ (← quotedRest double fuel)
      else
        skip 1
        return c :: (← quotedRest double fuel)

/-- A scalar in quotes. -/
def quoted (double : Bool) : Reader Text := do
  skip 1
  quotedRest double ((← get).rest.length + 1)

/-! ## Block scalars -/

/-- How the line breaks at the end of a block scalar are kept. -/
inductive Chomping where
  | clip
  | strip
  | keep
deriving DecidableEq, Repr, Inhabited

/-- The sign behind the indicator of a block scalar. -/
def chomping? : Reader (Option Chomping) := do
  match ← peek with
  | some '+' => skip 1; return some .keep
  | some '-' => skip 1; return some .strip
  | _ => return none

/-- The indentation behind the indicator of a block scalar, which is not zero. -/
def increment? : Reader (Option Nat) := do
  match ← peek with
  | some c =>
    if c.isDigit then
      require (c != '0')
      skip 1
      return some (c.toNat - '0'.toNat)
    else return none
  | none => return none

/-- The sign and the indentation of a block scalar, in either order. -/
def blockIndicators : Reader (Chomping × Option Nat) := do
  let result ← do
    match ← chomping? with
    | some c => pure (c, ← increment?)
    | none =>
      match ← increment? with
      | some n => pure ((← chomping?).getD .clip, some n)
      | none => pure (.clip, none)
  require (← get).wordEnds
  return result

/-- The blank lines in front of a block scalar, and the deepest indentation among them. -/
def blockStart (deepest : Nat) : (fuel : Nat) → Reader (Text × Nat)
  | 0 => pure ([], deepest)
  | fuel + 1 => do
    match ← peek with
    | some ' ' =>
      skip 1
      blockStart (max deepest (← get).column) fuel
    | some c =>
      if isBreak c then
        let b ← lineBreak
        let (breaks, deepest) ← blockStart deepest fuel
        return (b ++ breaks, deepest)
      else return ([], deepest)
    | none => return ([], deepest)

/-- Skip spaces up to a column. -/
def indentTo (column : Nat) : Reader Unit := do
  let p ← get
  skip ((p.rest.take (column - p.column)).takeWhile (· == ' ')).length

/-- The blank lines inside of a block scalar. -/
def blockBreaks (indent : Nat) : (fuel : Nat) → Reader Text
  | 0 => pure []
  | fuel + 1 => do
    indentTo indent
    if (← peek).any isBreak then
      let b ← lineBreak
      return b ++ (← blockBreaks indent fuel)
    else return []

/-- Does a line of a block scalar start here? -/
def inBlock (indent : Nat) : Reader Bool := do
  let p ← get
  return p.column == indent && !p.rest.isEmpty

/-- The lines of a block scalar. Of two lines that are not indented further, a folded scalar joins
the second to the first. -/
def blockLines (fold : Bool) (chomping : Chomping) (indent : Nat) (breaks : Text) :
    (fuel : Nat) → Reader Text
  | 0 => pure []
  | fuel + 1 => do
    let indented := (← peek).any fun c => c == ' ' || c == '\t'
    let line ← takeWhile (!isBreak ·)
    let b ← lineBreak
    let more ← blockBreaks indent ((← get).rest.length + 1)
    if ← inBlock indent then
      let nextIndented := (← peek).any fun c => c == ' ' || c == '\t'
      let joint :=
        if fold && b == ['\n'] && !indented && !nextIndented then
          if more.isEmpty then [' '] else []
        else b
      return breaks ++ line ++ joint ++ (← blockLines fold chomping indent more fuel)
    else
      let ending := match chomping with
        | .strip => []
        | .clip => b
        | .keep => b ++ more
      return breaks ++ line ++ ending

/-- A block scalar inside of a block with the given indentation. -/
def blockScalar (fold : Bool) (indent : Int) : Reader Text := do
  skip 1
  let (chomping, increment) ← blockIndicators
  restOfLine
  let least := (max (indent + 1) 1).toNat
  let fuel := (← get).rest.length + 1
  let (indent, breaks) ← do
    match increment with
    | some n =>
      let indent := least + n - 1
      pure (indent, ← blockBreaks indent fuel)
    | none =>
      let (breaks, deepest) ← blockStart 0 fuel
      pure (max least deepest, breaks)
  if ← inBlock indent then blockLines fold chomping indent breaks fuel
  else return if chomping = .keep then breaks else []

/-! ## Plain scalars -/

/-- Does a plain scalar end at this place? -/
def plainEnds (flow : Bool) (p : Place) : Bool :=
  match p.ahead 0 with
  | none => true
  | some c =>
    isGap c ||
      (c == ':' && (p.ahead 1).all fun d => isGap d || (flow && ",[]\x7b\x7d".toList.contains d)) ||
      (flow && ",?[]\x7b\x7d".toList.contains c)

/-- The characters of a plain scalar up to its next gap. -/
def plainWord (flow : Bool) : (fuel : Nat) → Reader Text
  | 0 => pure []
  | fuel + 1 => do
    let p ← get
    if plainEnds flow p then return []
    else match p.rest with
      | [] => return []
      | c :: _ =>
        skip 1
        return c :: (← plainWord flow fuel)

/-- The blank lines in a plain scalar. There is no result where the document ends. -/
def plainBreaks : (fuel : Nat) → Reader (Option Text)
  | 0 => pure (some [])
  | fuel + 1 => do
    match ← peek with
    | some ' ' =>
      skip 1
      plainBreaks fuel
    | some c =>
      if isBreak c then
        let b ← lineBreak
        if (← get).atSeparator then return none
        else return (← plainBreaks fuel).map (b ++ ·)
      else return some []
    | none => return some []

/-- The gap in a plain scalar: what it stands for, which is nothing where the scalar ends, and
whether it breaks the line. -/
def plainGap : Reader (Text × Bool) := do
  let gap ← takeWhile (· == ' ')
  if (← peek).any isBreak then
    let b ← lineBreak
    if (← get).atSeparator then return ([], true)
    else
      let breaks ← plainBreaks ((← get).rest.length + 1)
      return ((breaks.map (folded b)).getD [], true)
  else return (gap, false)

/-- The rest of a plain scalar behind a gap, and whether a line break is the last thing read. -/
def plainRest (flow : Bool) (indent : Int) (gap : Text) (broken : Bool) :
    (fuel : Nat) → Reader (Text × Bool)
  | 0 => pure ([], broken)
  | fuel + 1 => do
    if (← peek) == some '#' then return ([], broken)
    else
      let word ← plainWord flow ((← get).rest.length + 1)
      if word.isEmpty then return ([], broken)
      else
        let (next, broken) ← plainGap
        let p ← get
        if next.isEmpty || p.ahead 0 == some '#' || (!flow && (p.column : Int) < indent + 1) then
          return (gap ++ word, broken)
        else
          let (rest, broken) ← plainRest flow indent next broken fuel
          return (gap ++ word ++ rest, broken)

/-- A plain scalar inside of a block with the given indentation, and whether the reader went on to
another line behind it. -/
def plain (flow : Bool) (indent : Int) : Reader (Text × Bool) := do
  plainRest flow indent [] false ((← get).rest.length + 1)

end HeaderCatalog.Yaml.Reader
