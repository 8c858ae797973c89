import HeaderCatalog.Tree

/-!
# HeaderCatalog.Script.Source — a JavaScript source as it is read

A source is an array of characters, with the byte offset and the row and column of every place.
Everything that reads it works with places: indices into the array, from the first character to
just past the last. The scanning functions of this module go from a place to the place behind
what they read, and never past the end.
-/

namespace HeaderCatalog.Script

/-- A source with the byte offset and the point of each place; both arrays are one longer than
the text. -/
structure Source where
  chars : Array Char
  offsets : Array Nat
  points : Array Point
deriving Inhabited

namespace Source

/-- The point behind a character. Columns count bytes. -/
def nextPoint (p : Point) (c : Char) : Point :=
  if c = '\n' then ⟨p.row + 1, 0⟩ else ⟨p.row, p.column + c.utf8Size⟩

/-- A text, ready to be read. -/
def ofText (text : Text) : Source where
  chars := text.toArray
  offsets := text.foldl (fun a c => a.push (a.back?.getD 0 + c.utf8Size)) #[0]
  points := text.foldl (fun a c => a.push (nextPoint (a.back?.getD ⟨0, 0⟩) c)) #[⟨0, 0⟩]

/-- The place past the last character. -/
def size (s : Source) : Nat := s.chars.size

/-- The character at a place; there is none at the end. -/
def at? (s : Source) (p : Nat) : Option Char := s.chars[p]?

/-- Does the character at a place satisfy the test? -/
def isAt (s : Source) (p : Nat) (test : Char → Bool) : Bool :=
  (s.at? p).any test

/-- The text between two places. -/
def text (s : Source) (start stop : Nat) : Text :=
  (s.chars.extract start stop).toList

/-- Do these characters stand at a place? -/
def hasText (s : Source) (p : Nat) : Text → Bool
  | [] => true
  | c :: rest => s.isAt p (· == c) && s.hasText (p + 1) rest

/-- Does this string stand at a place? -/
def has (s : Source) (p : Nat) (word : String) : Bool :=
  s.hasText p word.toList

/-- The first place from `p` on whose character fails the test. -/
def skipWhile (s : Source) (test : Char → Bool) (p : Nat) : Nat :=
  if h : p < s.chars.size then
    if test s.chars[p] then s.skipWhile test (p + 1) else p
  else p
termination_by s.chars.size - p

/-- The place just past the next occurrence of `word` from `p` on. -/
def past? (s : Source) (word : String) (p : Nat) : Option Nat :=
  if s.has p word then some (p + word.length)
  else if p < s.chars.size then s.past? word (p + 1)
  else none
termination_by s.chars.size - p

/-- A node that spans the source between two places. -/
def node (s : Source) (kind : String) (named : Bool) (start stop : Nat) (children : List Node) :
    Node where
  kind := kind
  start := s.offsets.getD start 0
  stop := s.offsets.getD stop 0
  named := named
  field := none
  isError := false
  isMissing := false
  hasError := false
  point := s.points.getD start ⟨0, 0⟩
  text := .ok (s.text start stop)
  children := children

end Source

/-! ## Character classes -/

/-- The characters that end a line. -/
def isNewline (c : Char) : Bool :=
  c == '\n' || c == '\u2028' || c == '\u2029'

/-- White space between tokens. -/
def isSpace (c : Char) : Bool :=
  ('\t' ≤ c && c ≤ '\r') || c == ' ' || c == '\u0085' || c == '\u00A0' || c == '\u1680' ||
    ('\u2000' ≤ c && c ≤ '\u200B') || isNewline c || c == '\u202F' || c == '\u205F' ||
    c == '\u2060' || c == '\u3000' || c == '\uFEFF'

/-- White space that a line may hold where a semicolon is left out. Spaces that do not break are
not among it. -/
def isPlainSpace (c : Char) : Bool :=
  ('\t' ≤ c && c ≤ '\r') || c == ' ' || c == '\u1680' || ('\u2000' ≤ c && c ≤ '\u2006') ||
    ('\u2008' ≤ c && c ≤ '\u200A') || isNewline c || c == '\u205F' || c == '\u3000'

/-- Punctuation, which is part of no name. -/
def isPunctuation (c : Char) : Bool :=
  ":;`\"'@#.,|^&<=>+-*/\\%?!~()[]\x7b\x7d".toList.contains c

/-- A character that may stand in a name but not at its start is a digit; all characters that
are neither white space, punctuation nor control characters may start a name. -/
def isNameStart (c : Char) : Bool :=
  0x20 ≤ c.toNat && !isSpace c && !isPunctuation c && !c.isDigit

/-- A character that may stand in a name. -/
def isNamePart (c : Char) : Bool :=
  isNameStart c || c.isDigit

/-- A hexadecimal digit. -/
def isHexDigit (c : Char) : Bool :=
  c.isDigit || ('a' ≤ c && c ≤ 'f') || ('A' ≤ c && c ≤ 'F')

/-- An octal digit. -/
def isOctalDigit (c : Char) : Bool := '0' ≤ c && c ≤ '7'

/-- A binary digit. -/
def isBinaryDigit (c : Char) : Bool := c == '0' || c == '1'

end HeaderCatalog.Script
