import HeaderCatalog.Text.Alphanumeric

/-!
# HeaderCatalog.Text — texts, their lines and their characters

A text is its list of characters, and every offset counts characters. This module holds the
operations that the catalogue needs on texts: the two character classes that decide where a
header may stretch and where a name ends, the normal form in which headers are searched for and
the bytes that it takes, and the division into lines.
-/

namespace HeaderCatalog

/-- A text is the list of its characters; every offset into it counts characters. -/
abbrev Text := List Char

/-- A text that takes more bytes than this cannot be made. -/
def maxTextSize : Nat := Nat.pow 2 63 - 1

namespace Text

/-! ## Character classes -/

/-- The white space that may vary inside a header: space, tab and newline, nothing else. -/
def isBlank (c : Char) : Bool :=
  c == ' ' || c == '\t' || c == '\n'

/-- A character that continues a name: a letter or numeral of any script, `_` or `$`. -/
def isWord (c : Char) : Bool :=
  if c.toNat < 128 then c.isAlphanum || c == '_' || c == '$'
  else inRanges c.toNat alphanumericRanges

/-- The brace that opens a block. -/
def openBrace : Char := '\x7b'

/-- The brace that closes a block. -/
def closeBrace : Char := '\x7d'

/-- How many blanks stand at the front of a text. -/
def blanks (text : Text) : Nat :=
  (text.takeWhile isBlank).length

/-! ## Normal form and lines -/

/-- The spaces a character is written as when tabs are `tabSize` wide; size zero keeps tabs. -/
def expandTab (tabSize : Nat) (c : Char) : Text :=
  if c = '\t' ∧ 0 < tabSize then List.replicate tabSize ' ' else [c]

/-- The form in which headers are searched for: no carriage returns, and each tab written as
`tabSize` spaces when that is positive. -/
def normalize (tabSize : Nat) (text : Text) : Text :=
  (text.filter (· != '\r')).flatMap (expandTab tabSize)

/-- The bytes of each cell in which a text keeps a character: one, two or four, as its widest
character needs. -/
def cellSize (text : Text) : Nat :=
  if text.all (·.toNat < 256) then 1
  else if text.all (·.toNat < 65536) then 2
  else 4

/-- How many characters a character is written as in the normal form. -/
def normalWidth (tabSize : Nat) (c : Char) : Nat :=
  if c = '\r' then 0 else if c = '\t' ∧ 0 < tabSize then tabSize else 1

/-- The length of the normal form of a text, counted without writing it. -/
def normalLength (tabSize : Nat) (text : Text) : Nat :=
  text.foldr (fun c n => normalWidth tabSize c + n) 0

/-- Put a character in front of the first line. -/
def consLine (c : Char) : List Text → List Text
  | [] => [[c]]
  | line :: rest => (c :: line) :: rest

/-- The lines of a text, without their newlines. There is always one more line than newlines. -/
def lines : Text → List Text
  | [] => [[]]
  | c :: rest => if c = '\n' then [] :: lines rest else consLine c (lines rest)

/-- The characters from offset `start` up to, not including, offset `stop`. -/
def slice (text : Text) (start stop : Nat) : Text :=
  (text.take stop).drop start

/-- Does the text end in this character? -/
def endsWith (text : Text) (c : Char) : Bool :=
  text.getLast? == some c

/-- The offset of the first `c` at or after `start`, if there is one. -/
def find? (text : Text) (c : Char) (start : Nat) : Option Nat :=
  ((text.drop start).findIdx? (· == c)).map (start + ·)

end Text

end HeaderCatalog
