import HeaderCatalog.Fault

/-!
# HeaderCatalog.Pattern — headers as sequences of literal tokens

A pattern is a fixed sequence of literals between which only white space may vary. It pins down
where the header of a declaration starts and ends without saying anything else about it.

* `Pattern.matchAt` reads the tokens greedily, from left to right, and never goes back.
* `Pattern.search` finds the first place at or after an offset where the pattern matches.

A literal that ends in a word character must not be followed by one, and the first literal must
not be preceded by one if it begins with one; so a match never cuts a name.

In jsscribe these are `HeaderPattern`, with `then`, `normalized`, `match_at` and `search`, and
`normalize_text`.
-/

namespace HeaderCatalog

/-- The white space in front of a token: none, any amount, or at least one blank. -/
inductive Gap where
  | none
  | any
  | many
deriving DecidableEq, Repr, Inhabited

/-- The mark of a gap in a printed pattern. -/
def Gap.mark : Gap → Text
  | .none => []
  | .any => ['~']
  | .many => ['+']

/-- One literal of a pattern with the gap in front of it. An optional token is read when it is
there and passed over otherwise. -/
structure Token where
  gap : Gap
  literal : Text
  optional : Bool
deriving DecidableEq, Repr, Inhabited

/-- A header pattern: its tokens in order. -/
structure Pattern where
  tokens : List Token
deriving DecidableEq, Repr, Inhabited

/-- A place where a pattern matches: its first offset, the offset past its end, and the text
between them. -/
structure Match where
  index : Nat
  stop : Nat
  text : Text
deriving DecidableEq, Repr, Inhabited

/-- Room for so many characters in cells of one size, and for the mark of their end. -/
def Text.reserve (cell length : Nat) (tooLong : Fault) : Except Fault Unit :=
  if maxTextSize < cell * length then .error tooLong
  else if maxTextSize < cell * (length + 1) then .error .noRoom
  else .ok ()

/-- The normal form of a text. There is none if there is no room for the spaces of one tab, or for
the text with its tabs written so. -/
def Text.normalForm (tabSize : Nat) (text : Text) : Except Fault Text := do
  reserve 1 tabSize .tabsTooWide
  reserve text.cellSize (text.normalLength tabSize) .textTooLong
  return text.normalize tabSize

/-! ## Building -/

namespace Pattern

/-- The pattern without tokens. It matches nowhere. -/
def empty : Pattern := ⟨[]⟩

/-- Add a token at the end. The first token of a pattern has no gap and is never optional. -/
def add (p : Pattern) (literal : Text) (gap : Gap) (optional : Bool) : Pattern :=
  if p.tokens.isEmpty then ⟨[⟨.none, literal, false⟩]⟩
  else ⟨p.tokens ++ [⟨gap, literal, optional⟩]⟩

/-- Add a required literal with any white space in front of it. -/
def lit (p : Pattern) (literal : Text) : Pattern :=
  p.add literal .any false

/-- Add a required literal with at least one blank in front of it. -/
def word (p : Pattern) (literal : Text) : Pattern :=
  p.add literal .many false

/-- The pattern with every literal normalized like the text it is searched in. -/
def normalized (p : Pattern) (tabSize : Nat) : Pattern :=
  ⟨p.tokens.map fun t => { t with literal := t.literal.normalize tabSize }⟩

/-- The pattern with every literal in normal form, unless one of them has none. -/
def normalForm (p : Pattern) (tabSize : Nat) : Except Fault Pattern := do
  return ⟨← p.tokens.mapM fun t => do return { t with literal := ← t.literal.normalForm tabSize }⟩

end Pattern

/-! ## Matching -/

/-- The blanks that the token's gap takes at the front of `rest`. -/
def Token.gapLength (t : Token) (rest : Text) : Nat :=
  if t.gap = .none then 0 else rest.blanks

/-- How many characters the token takes at the front of `rest`, its gap included, or `none` if
it does not stand there. A literal that ends in a word character has to end its word. -/
def Token.take? (t : Token) (rest : Text) : Except Fault (Option Nat) :=
  let gap := t.gapLength rest
  if t.gap = .many ∧ gap = 0 then .ok none
  else if t.literal.isPrefixOf (rest.drop gap) then
    match t.literal.getLast? with
    | none => .error .emptyLiteral
    | some last =>
      let stop := gap + t.literal.length
      if Text.isWord last && (rest[stop]?).any Text.isWord then .ok none else .ok (some stop)
  else .ok none

/-- How many characters the tokens take together at the front of `rest`. Each token takes what
it can; an optional one that does not stand there takes nothing. -/
def takeTokens? : List Token → Text → Except Fault (Option Nat)
  | [], _ => .ok (some 0)
  | t :: ts, rest => do
    match ← t.take? rest with
    | some n => return (← takeTokens? ts (rest.drop n)).map (n + ·)
    | none => if t.optional then takeTokens? ts rest else return none

namespace Pattern

/-- The length of the match at the front of `rest`, where `before` is the character in front of
it. A first literal that begins with a word character has to begin its word. -/
def take? (p : Pattern) (before : Option Char) (rest : Text) : Except Fault (Option Nat) :=
  match p.tokens with
  | [] => .ok none
  | t :: _ =>
    match t.literal with
    | [] => .error .emptyLiteral
    | c :: _ =>
      if Text.isWord c && before.any Text.isWord then .ok none
      else takeTokens? p.tokens rest

/-- The end of the match that starts exactly at `start`. It is an error to ask beyond the end of
the text whether a word begins there. -/
def matchAt (p : Pattern) (text : Text) (start : Nat) : Except Fault (Option Nat) :=
  if text.length < start then
    match p.tokens with
    | [] => .ok none
    | t :: _ =>
      match t.literal with
      | [] => .error .emptyLiteral
      | c :: _ => if Text.isWord c then .error .beyondText else .ok none
  else do
    let before := if start = 0 then none else text[start - 1]?
    return (← p.take? before (text.drop start)).map (start + ·)

/-- The length of the match at the front of `rest`, tried only if `first` stands there. -/
def takeFrom? (p : Pattern) (first : Text) (before : Option Char) (rest : Text) :
    Except Fault (Option Nat) :=
  if first.isPrefixOf rest then p.take? before rest else .ok none

/-- The first match in `rest`, where `index` is the offset of `rest` and `before` the character
in front of it. Only places where the first literal stands are tried. -/
def searchFrom (p : Pattern) (first : Text) :
    (before : Option Char) → (index : Nat) → (rest : Text) → Except Fault (Option Match)
  | before, index, rest => do
    match ← p.takeFrom? first before rest with
    | some n => return some ⟨index, index + n, rest.take n⟩
    | none =>
      match rest with
      | [] => return none
      | c :: rest => searchFrom p first (some c) (index + 1) rest

/-- The first match at or after `start`. -/
def search (p : Pattern) (text : Text) (start : Nat) : Except Fault (Option Match) :=
  match p.tokens with
  | [] => .ok none
  | t :: _ =>
    if text.length < start then .ok none
    else
      let before := if start = 0 then none else text[start - 1]?
      p.searchFrom t.literal before start (text.drop start)

/-! ## Printing -/

/-- A token as it stands in a printed pattern: its gap, its literal, and `?` if it is optional. -/
def renderToken (t : Token) : Text :=
  t.gap.mark ++ t.literal ++ (if t.optional then ['?'] else [])

/-- The pattern in one line, its tokens divided by spaces. -/
def render (p : Pattern) : Text :=
  [' '].intercalate (p.tokens.map renderToken)

end Pattern

end HeaderCatalog
