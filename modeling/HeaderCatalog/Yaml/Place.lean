import HeaderCatalog.Text

/-!
# HeaderCatalog.Yaml.Place — places in a YAML text

A place is what is left of the text with the line and column at which it stands. A reader goes
from a place to a result and the place behind it, or fails. Where a rule looks at the end of the
text it sees no character, so the classes here are on optional characters.
-/

namespace HeaderCatalog.Yaml

/-! ## Characters -/

/-- A line break. -/
def isBreak (c : Char) : Bool :=
  c == '\n' || c == '\r' || c == '\u0085' || c == '\u2028' || c == '\u2029'

/-- A space, a tab or a line break. -/
def isGap (c : Char) : Bool :=
  c == ' ' || c == '\t' || isBreak c

/-- A character that a text may hold. -/
def isPrintable (c : Char) : Bool :=
  c == '\t' || c == '\n' || c == '\r' || (' ' ≤ c && c ≤ '~') || c == '\u0085' ||
    (0xA0 ≤ c.toNat && c.toNat ≤ 0xFFFD) || 0x10000 ≤ c.toNat

/-- A character of a name: of an anchor, a directive or a tag handle. -/
def isNameChar (c : Char) : Bool :=
  c.isAlphanum || c == '-' || c == '_'

/-- A character of a tag that stands for itself. -/
def isTagChar (c : Char) : Bool :=
  c.isAlphanum || "-;/?:@&=+$,_.!~*'()[]".toList.contains c

/-- The value of a hexadecimal digit. -/
def hexValue? (c : Char) : Option Nat :=
  if c.isDigit then some (c.toNat - '0'.toNat)
  else if 'a' ≤ c && c ≤ 'f' then some (c.toNat - 'a'.toNat + 10)
  else if 'A' ≤ c && c ≤ 'F' then some (c.toNat - 'A'.toNat + 10)
  else none

/-- The value of hexadecimal digits. -/
def hexNumber? (digits : Text) : Option Nat :=
  digits.foldlM (fun n c => (hexValue? c).map (16 * n + ·)) 0

/-! ## Places -/

/-- A place in a text. -/
structure Place where
  rest : Text
  index : Nat
  line : Nat
  column : Nat
deriving Repr, Inhabited

namespace Place

/-- The start of a text. -/
def start (text : Text) : Place := ⟨text, 0, 0, 0⟩

/-- The place behind the next character. A byte order mark takes no column. -/
def forward (p : Place) : Place :=
  match p.rest with
  | [] => p
  | c :: rest =>
    if isBreak c then ⟨rest, p.index + 1, p.line + 1, 0⟩
    else ⟨rest, p.index + 1, p.line, if c = '\ufeff' then p.column else p.column + 1⟩

/-- The place some characters further on. -/
def forwards : Nat → Place → Place
  | 0, p => p
  | n + 1, p => forwards n p.forward

/-- The character a number of places ahead. -/
def ahead (p : Place) (n : Nat) : Option Char := p.rest[n]?

/-- Does a gap or the end of the text stand so far ahead? -/
def gapAhead (p : Place) (n : Nat) : Bool := (p.ahead n).all isGap

/-- Does a line break or the end of the text stand here? -/
def lineEnds (p : Place) : Bool := (p.ahead 0).all isBreak

/-- Does a space, a line break or the end of the text stand here? -/
def wordEnds (p : Place) : Bool := (p.ahead 0).all fun c => c == ' ' || isBreak c

/-- Does this mark stand here, with a gap behind it? -/
def hasMarker (p : Place) (mark : String) : Bool :=
  mark.toList.isPrefixOf p.rest && p.gapAhead mark.length

/-- Does a line that separates documents start here? -/
def atSeparator (p : Place) : Bool := p.hasMarker "---" || p.hasMarker "..."

end Place

/-! ## Readers -/

/-- A reader of a text that may fail. -/
abbrev Reader := StateT Place Option

namespace Reader

/-- Succeed only if the condition holds. -/
def require (condition : Bool) : Reader Unit :=
  if condition then pure () else failure

/-- The next character. -/
def peek : Reader (Option Char) := do
  return (← get).ahead 0

/-- Go forward by some characters. -/
def skip (n : Nat) : Reader Unit :=
  modify (Place.forwards n)

/-- Take the next character if it is this one, and fail otherwise. -/
def expect (c : Char) : Reader Unit := do
  require ((← peek) == some c)
  skip 1

/-- Take characters as long as they satisfy the test. -/
def takeWhile (test : Char → Bool) : Reader Text := do
  let taken := (← get).rest.takeWhile test
  skip taken.length
  return taken

/-- Skip spaces. -/
def spaces : Reader Unit := do
  let _ ← takeWhile (· == ' ')

/-- Take a line break; the usual ones are all read as a newline. There may be none. -/
def lineBreak : Reader Text := do
  match (← get).rest with
  | '\r' :: '\n' :: _ => skip 2; return ['\n']
  | c :: _ =>
    if isBreak c then
      skip 1
      return [if c == '\u2028' || c == '\u2029' then c else '\n']
    else return []
  | [] => return []

/-- Skip the rest of a line that may hold a comment and nothing else. -/
def restOfLine : Reader Unit := do
  spaces
  if (← peek) == some '#' then
    let _ ← takeWhile (!isBreak ·)
  require (← get).lineEnds
  let _ ← lineBreak

end Reader

end HeaderCatalog.Yaml
