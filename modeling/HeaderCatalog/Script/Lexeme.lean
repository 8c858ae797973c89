import HeaderCatalog.Script.Source

/-!
# HeaderCatalog.Script.Lexeme — the words of JavaScript

One function for each class of lexemes: from the place where it starts to the place behind it,
or `none` if no such lexeme stands there. Which classes are tried at a place is up to the
grammar, so that a slash is a division after an operand and a regular expression before one.

`endsStatement` decides where a semicolon may be left out.
-/

namespace HeaderCatalog.Script

namespace Source

/-! ## Comments -/

/-- A comment to the end of the line or between `/*` and `*/`. -/
def comment? (s : Source) (p : Nat) : Option Nat :=
  if s.has p "//" then
    some (s.skipWhile (fun c => !(isNewline c || c == '\r')) (p + 2))
  else if s.has p "/*" then s.past? "*/" (p + 2)
  else none

/-- A comment to the end of the line that starts with `<!--` or `-->`. -/
def markupComment? (s : Source) (p : Nat) : Option Nat :=
  if s.has p "<!--" || s.has p "-->" then
    some (s.skipWhile (fun c => !isNewline c) (p + 3))
  else none

/-! ## Names -/

/-- An escape such as `\u0041` or `\u{41}` in a name. -/
def nameEscape? (s : Source) (p : Nat) : Option Nat :=
  if s.has p "\\u\x7b" then
    let stop := s.skipWhile isHexDigit (p + 3)
    if p + 3 < stop && s.isAt stop (· == Text.closeBrace) then some (stop + 1) else none
  else if s.has p "\\u" && (List.range 4).all (fun i => s.isAt (p + 2 + i) isHexDigit) then
    some (p + 6)
  else none

/-- The rest of a name. -/
def nameRest (s : Source) (p : Nat) : (fuel : Nat) → Nat
  | 0 => p
  | fuel + 1 =>
    if s.isAt p isNamePart then s.nameRest (p + 1) fuel
    else match s.nameEscape? p with
      | some q => s.nameRest q fuel
      | none => p

/-- A name: an identifier or a keyword. -/
def name? (s : Source) (p : Nat) : Option Nat :=
  if s.isAt p isNameStart then some (s.nameRest (p + 1) (s.size - p))
  else (s.nameEscape? p).map fun q => s.nameRest q (s.size - p)

/-- The name at a place, or the empty text. -/
def nameAt (s : Source) (p : Nat) : String :=
  match s.name? p with
  | some q => String.ofList (s.text p q)
  | none => ""

/-- A name of a markup tag, which may hold hyphens. -/
def tagName? (s : Source) (p : Nat) : Option Nat :=
  (s.name? p).map fun q =>
    if s.isAt q (· == '-') then
      s.skipWhile (fun c => c.isAlphanum || c == '_' || c == '$' || c == '-') q
    else q

/-! ## Numbers -/

/-- Digits with single underscores between them. -/
def digits? (s : Source) (isDigit : Char → Bool) (p : Nat) : Option Nat :=
  if s.isAt p isDigit then some (rest (p + 1) (s.size - p)) else none
where
  /-- The digits behind the first one. -/
  rest (p : Nat) : (fuel : Nat) → Nat
    | 0 => p
    | fuel + 1 =>
      if s.isAt p isDigit then rest (p + 1) fuel
      else if s.isAt p (· == '_') && s.isAt (p + 1) isDigit then rest (p + 2) fuel
      else p

/-- An integer with a letter that gives its base. -/
def basedInteger? (s : Source) (p : Nat) : Option Nat :=
  if s.has p "0x" || s.has p "0X" then s.digits? isHexDigit (p + 2)
  else if s.has p "0b" || s.has p "0B" then s.digits? isBinaryDigit (p + 2)
  else if s.has p "0o" || s.has p "0O" then s.digits? isOctalDigit (p + 2)
  else none

/-- The exponent of a decimal number. -/
def exponent? (s : Source) (p : Nat) : Option Nat :=
  if s.isAt p (fun c => c == 'e' || c == 'E') then
    s.digits? Char.isDigit (if s.isAt (p + 1) (fun c => c == '+' || c == '-') then p + 2 else p + 1)
  else none

/-- The part of a decimal number from its point on. -/
def fraction? (s : Source) (p : Nat) : Option Nat :=
  if s.isAt p (· == '.') then
    let q := (s.digits? Char.isDigit (p + 1)).getD (p + 1)
    some ((s.exponent? q).getD q)
  else none

/-- A decimal number that starts with a digit. -/
def decimal? (s : Source) (p : Nat) : Option Nat :=
  (s.digits? Char.isDigit p).map fun q =>
    ((s.fraction? q).or (s.exponent? q)).getD q

/-- A number. The letter `n` marks a large integer. -/
def number? (s : Source) (p : Nat) : Option Nat :=
  match s.basedInteger? p with
  | some q => some (if s.isAt q (· == 'n') then q + 1 else q)
  | none =>
    if s.isAt p (· == '.') then
      if s.isAt (p + 1) Char.isDigit then s.fraction? p else none
    else
      (s.decimal? p).map fun q =>
        if s.isAt q (· == 'n') && s.digits? Char.isDigit p == some q then q + 1 else q

/-! ## Strings, templates and regular expressions -/

/-- An escape sequence in a string or template. -/
def escape? (s : Source) (p : Nat) : Option Nat :=
  if !s.isAt p (· == '\\') then none
  else match s.at? (p + 1) with
    | none => none
    | some 'x' =>
      if s.isAt (p + 2) isHexDigit && s.isAt (p + 3) isHexDigit then some (p + 4) else none
    | some 'u' => s.nameEscape? p
    | some '\r' => some (if s.isAt (p + 2) isNewline then p + 3 else p + 2)
    | some c =>
      if isOctalDigit c then
        let q := s.skipWhile isOctalDigit (p + 1)
        some (if p + 4 < q then p + 4 else q)
      else some (p + 2)

/-- The characters of a string up to its quote, an escape or the end of the line. -/
def stringPart? (s : Source) (quote : Char) (p : Nat) : Option Nat :=
  let q := s.skipWhile (fun c => !(c == quote || c == '\\' || c == '\n' || c == '\r')) p
  if p < q then some q else none

/-- The characters of a template up to its end, an escape or a substitution. -/
def templatePart? (s : Source) (p : Nat) : Option Nat :=
  let q := run p (s.size - p)
  if p < q then some q else none
where
  /-- Go on to the end of the part. -/
  run (p : Nat) : (fuel : Nat) → Nat
    | 0 => p
    | fuel + 1 =>
      if s.isAt p (fun c => c == '`' || c == '\\') || s.has p "$\x7b" then p else run (p + 1) fuel

/-- The body of a regular expression, up to its slash. A slash in a bracket does not end it. -/
def regexBody? (s : Source) (p : Nat) : Option Nat :=
  let q := run false p (s.size - p)
  if p < q && s.isAt q (· == '/') then some q else none
where
  /-- Go on to the end of the body. -/
  run (bracket : Bool) (p : Nat) : (fuel : Nat) → Nat
    | 0 => p
    | fuel + 1 =>
      match s.at? p with
      | none => p
      | some '\n' => p
      | some '\\' => if s.isAt (p + 1) (· != '\n') then run bracket (p + 2) fuel else p
      | some '[' => run true (p + 1) fuel
      | some ']' => run false (p + 1) fuel
      | some '/' => if bracket then run bracket (p + 1) fuel else p
      | some _ => run bracket (p + 1) fuel

/-- The flags behind a regular expression. -/
def regexFlags? (s : Source) (p : Nat) : Option Nat :=
  let q := s.skipWhile (fun c => 'a' ≤ c && c ≤ 'z') p
  if p < q then some q else none

/-! ## Markup -/

/-- Text between tags. White space that starts with a newline is no text. -/
def markupText? (s : Source) (p : Nat) : Option Nat :=
  let q := s.skipWhile (fun c => !("<>&\x7b\x7d".toList.contains c)) p
  if (s.text p q).foldl step (false, false) |>.2 then some q else none
where
  /-- Whether only white space stands since the last newline, and whether there is text. -/
  step (state : Bool × Bool) (c : Char) : Bool × Bool :=
    if c = '\n' then (true, state.2)
    else
      let atNewline := state.1 && isPlainSpace c
      (atNewline, state.2 || !atNewline)

/-- A reference to a character such as `&amp;` or `&#38;`. -/
def characterReference? (s : Source) (p : Nat) : Option Nat :=
  if !s.isAt p (· == '&') then none
  else
    let body (start most : Nat) (test : Char → Bool) : Option Nat :=
      let q := s.skipWhile test start
      if start < q && q ≤ start + most && s.isAt q (· == ';') then some (q + 1) else none
    if s.has (p + 1) "#x" || s.has (p + 1) "#X" then body (p + 3) 6 isHexDigit
    else if s.has (p + 1) "#" then body (p + 2) 5 Char.isDigit
    else body (p + 1) 30 Char.isAlpha

/-- The characters of an attribute's string up to its quote or a character reference. -/
def attributePart? (s : Source) (quote : Char) (p : Nat) : Option Nat :=
  let q := run p (s.size - p)
  if p < q then some q else none
where
  /-- Go on to the end of the part. -/
  run (p : Nat) : (fuel : Nat) → Nat
    | 0 => p
    | fuel + 1 =>
      if s.isAt p (· == quote) then p
      else if s.isAt p (· == '&') && s.isAt (p + 1) (fun c => c == '#' || c.isAlpha) then p
      else run (p + 1) fuel

/-! ## Semicolons that are left out -/

/-- The place behind white space and comments, and whether a line break may have been skipped.
There is none in front of a slash that starts no comment. Unless `all` is set, the first comment
between `/*` and `*/` is the last thing that is skipped. -/
def blankEnd? (s : Source) (all broken : Bool) (p : Nat) : (fuel : Nat) → Option (Bool × Nat)
  | 0 => some (broken, p)
  | fuel + 1 =>
    let q := s.skipWhile isPlainSpace p
    if s.has q "//" then
      s.blankEnd? all broken (s.skipWhile (fun c => !isNewline c) q) fuel
    else if s.has q "/*" then
      match s.past? "*/" (q + 2) with
      | none => some (true, s.size)
      | some r =>
        let broken := broken || (s.text q r).any isNewline
        if all || s.isAt r (· == '/') then s.blankEnd? all broken r fuel else some (broken, r)
    else if s.isAt q (· == '/') then none
    else some (true, q)

/-- After a line break, may the statement end in front of what stands at `p`? Not if that would
go on with the statement. -/
def startsAnew (s : Source) (p : Nat) : Bool :=
  match s.at? p with
  | none => true
  | some '.' => s.isAt (p + 1) Char.isDigit
  | some '+' => s.isAt (p + 1) (· == '+')
  | some '-' => s.isAt (p + 1) (· == '-')
  | some '!' => !s.isAt (p + 1) (· == '=')
  | some 'i' =>
    let ends (q : Nat) := !s.isAt q isLetter
    !((s.has p "in" && ends (p + 2)) || (s.has p "instanceof" && ends (p + 10)))
  | some c => !("`,:;*%><=[(?^|&/".toList.contains c)
where
  /-- A letter, of any script. -/
  isLetter (c : Char) : Bool :=
    if c.toNat < 128 then c.isAlpha else Text.isWord c

/-- May the statement that ends at `p` do without a semicolon? At the end of the source and in
front of a closing brace it may; otherwise a line break has to follow, and behind it something
that does not go on with the statement. `operand` says that an expression ends at `p`; after
anything else a comment with a line break counts as a line break. -/
def endsStatement (s : Source) (operand : Bool) (p : Nat) : Bool :=
  (s.at? p).isNone || onLine p (s.size - p + 1)
where
  /-- A comment behind something that is no operand ends the statement, unless a comma or an
  equals sign goes on with it. -/
  commentEnds (q : Nat) : Bool :=
    !operand && !s.isAt q (fun c => c == ',' || c == '=')
  /-- Go on along the line, which is not at its end. -/
  onLine (p : Nat) : (fuel : Nat) → Bool
    | 0 => false
    | fuel + 1 =>
      if s.isAt p (· == Text.closeBrace) then true
      else if s.isAt p isNewline then
        ((s.blankEnd? true false (p + 1) (s.size - p + 1)).map (s.startsAnew ·.2)).getD false
      else if s.isAt p isPlainSpace then (s.at? (p + 1)).isNone || onLine (p + 1) fuel
      else if s.isAt p (· == '/') then
        match s.blankEnd? false false p (s.size - p + 1) with
        | none => false
        | some (broken, q) => (broken && commentEnds q) || onLine q fuel
      else false

end Source

end HeaderCatalog.Script
