import HeaderCatalog.Text

/-!
# HeaderCatalog.Report.Markup — texts that are read as markup

In a table, a bracket that starts with a lower case letter or with `#`, `/` or `@` is a tag and is
not printed. A tag that starts with a slash closes an open one; if there is none to close, the
text cannot be printed at all. A backslash takes away the meaning of the bracket behind it.
-/

namespace HeaderCatalog.Markup

/-- A piece of a text: characters, or a tag without its brackets. -/
inductive Piece where
  | plain (text : Text)
  | tag (text : Text)
deriving DecidableEq, Repr, Inhabited

/-- The text of a tag whose opening bracket has been read, and what follows the tag. -/
def tag? : Text → Option (Text × Text)
  | [] => none
  | c :: rest =>
    if ('a' ≤ c && c ≤ 'z') || c == '#' || c == '/' || c == '@' then
      let body := rest.takeWhile fun d => d != '[' && d != ']'
      match rest.drop body.length with
      | ']' :: rest => some (c :: body, rest)
      | _ => none
    else none

/-- The pieces of a text. Of the backslashes in front of a tag, each two stand for one, and one that
is left over makes the tag plain. -/
def pieces : (fuel : Nat) → Text → List Piece
  | 0, _ => []
  | _, [] => []
  | fuel + 1, c :: rest =>
    let text := c :: rest
    let slashes := (text.takeWhile (· == '\\')).length
    match text.drop slashes with
    | '[' :: inner =>
      match tag? inner with
      | some (tag, rest) =>
        let front := Piece.plain (List.replicate (slashes / 2) '\\')
        let piece := if slashes % 2 = 1 then Piece.plain ('[' :: tag ++ [']']) else .tag tag
        front :: piece :: pieces fuel rest
      | none => .plain (List.replicate slashes '\\' ++ ['[']) :: pieces fuel inner
    | after =>
      if slashes = 0 then .plain [c] :: pieces fuel rest
      else .plain (List.replicate slashes '\\') :: pieces fuel after

/-- Join plain pieces that stand side by side. -/
def join : List Piece → List Piece
  | .plain a :: rest =>
    match join rest with
    | .plain b :: more => .plain (a ++ b) :: more
    | more => .plain a :: more
  | .tag t :: rest => .tag t :: join rest
  | [] => []

/-- A backslash in front of a bracket is dropped. -/
def unescape : Text → Text
  | '\\' :: '[' :: rest => '[' :: unescape rest
  | c :: rest => c :: unescape rest
  | [] => []

/-- The name of a tag: what stands in front of an equals sign. -/
def tagName (tag : Text) : Text := tag.takeWhile (· != '=')

/-- A name without blanks around it and in lower case. -/
def tidy (name : Text) : Text :=
  let isSpace (c : Char) := Text.isBlank c || c == '\r'
  ((name.dropWhile isSpace).reverse.dropWhile isSpace).reverse.map Char.toLower

/-- Close a tag: the last one that is open, or the last one with the name that is given. -/
def close (name : Text) (openTags : List Text) : Option (List Text) :=
  if name.isEmpty then
    match openTags with
    | [] => none
    | _ :: rest => some rest
  else if openTags.contains name then some (openTags.erase name)
  else none

/-- The text that the pieces print, where these tags are open. -/
def printed (openTags : List Text) : List Piece → Option Text
  | [] => some []
  | .plain t :: rest => (printed openTags rest).map (unescape t ++ ·)
  | .tag t :: rest =>
    match tagName t with
    | '/' :: name => do printed (← close (tidy name) openTags) rest
    | name => printed (tidy name :: openTags) rest

/-- Characters that are never printed. -/
def isControl (c : Char) : Bool :=
  ['\x07', '\x08', '\x0b', '\x0c', '\x0d'].contains c

/-- What is printed of a text that is read as markup. -/
def plain? (text : Text) : Option Text :=
  let result := if text.contains '[' then printed [] (join (pieces (text.length + 1) text))
    else some text
  result.map (·.filter (!isControl ·))

end HeaderCatalog.Markup
