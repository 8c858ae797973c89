import HeaderCatalog.Yaml.Value

/-!
# HeaderCatalog.Yaml.Scalar — what scalars stand for

A plain scalar without a tag gets its kind from its form: `kindOf` tests the forms in turn, and
what fits none of them is a text. `Scalar.ofKind` then gives the value, and refuses texts that do
not fit their kind, which an explicit tag can cause. Some refusals are told apart from the rest,
since whoever reads settings has to report them.
-/

namespace HeaderCatalog.Yaml

/-! ## Moments -/

/-- A date, perhaps with a time and its distance from universal time in minutes. `padded` says
that month and day have two digits each. -/
structure Moment where
  year : Nat
  month : Nat
  day : Nat
  padded : Bool
  time : Option (Nat × Nat × Nat)
  offset : Nat
deriving DecidableEq, Repr, Inhabited

namespace Moment

/-- At least `low` and at most `high` digits at the front of a text. -/
def number? (low high : Nat) (text : Text) : Option (Nat × Text) :=
  let ds := (text.take high).takeWhile Char.isDigit
  if ds.length < low then none
  else some (Number.ofDigits 10 (ds.map fun c => c.toNat - '0'.toNat), text.drop ds.length)

/-- A character at the front of a text. -/
def after? (c : Char) : Text → Option Text
  | d :: rest => if c = d then some rest else none
  | [] => none

/-- The distance from universal time, up to the end of the text. -/
def offset? (text : Text) : Option Nat :=
  match text.dropWhile fun c => c == ' ' || c == '\t' with
  | ['Z'] => some 0
  | c :: rest =>
    if c == '-' || c == '+' then do
      let (hours, rest) ← number? 1 2 rest
      match rest with
      | [] => return 60 * hours
      | ':' :: rest =>
        let (minutes, rest) ← number? 2 2 rest
        if rest.isEmpty then return 60 * hours + minutes else none
      | _ => none
    else none
  | [] => none

/-- The time of a day, up to the end of the text. -/
def time? (text : Text) : Option ((Nat × Nat × Nat) × Nat) := do
  let (hour, rest) ← number? 1 2 text
  let (minute, rest) ← number? 2 2 (← after? ':' rest)
  let (second, rest) ← number? 2 2 (← after? ':' rest)
  let rest := match rest with
    | '.' :: more => more.dropWhile Char.isDigit
    | rest => rest
  if rest.isEmpty then return ((hour, minute, second), 0)
  else return ((hour, minute, second), ← offset? rest)

/-- A text that looks like a moment. -/
def ofText? (text : Text) : Option Moment := do
  let (year, rest) ← number? 4 4 text
  let fromMonth ← after? '-' rest
  let (month, rest) ← number? 1 2 fromMonth
  let fromDay ← after? '-' rest
  let (day, rest) ← number? 1 2 fromDay
  let padded := text.length - rest.length == 10
  match rest with
  | [] => return ⟨year, month, day, padded, none, 0⟩
  | c :: more =>
    let more := if c == 'T' || c == 't' then some more
      else if c == ' ' || c == '\t' then some (more.dropWhile fun c => c == ' ' || c == '\t')
      else none
    let (time, offset) ← time? (← more)
    return ⟨year, month, day, padded, some time, offset⟩

/-- The days of a month. -/
def daysIn (year month : Nat) : Nat :=
  if month == 2 then
    if year % 4 == 0 && (year % 100 != 0 || year % 400 == 0) then 29 else 28
  else if [4, 6, 9, 11].contains month then 30
  else 31

/-- Is it a moment of the calendar? -/
def isValid (m : Moment) : Bool :=
  1 ≤ m.year && 1 ≤ m.month && m.month ≤ 12 && 1 ≤ m.day && m.day ≤ daysIn m.year m.month &&
    m.time.all (fun (h, mi, s) => h < 24 && mi < 60 && s < 60) && m.offset < 24 * 60

end Moment

/-! ## Forms of plain scalars -/

/-- The kinds of scalars that the format names. -/
inductive ScalarKind where
  | null
  | bool
  | int
  | real
  | moment
  | text
  | bytes
  /-- A key that takes over the entries of other mappings. -/
  | merge
  /-- A key that gives the value of a mapping as a scalar. -/
  | default
  /-- A mark that has no value. -/
  | indicator
deriving DecidableEq, Repr, Inhabited

/-- Remove a sign. -/
def dropSign : Text → Text
  | '-' :: rest => rest
  | '+' :: rest => rest
  | text => text

/-- Is a text made of characters of a class, with at least one? -/
def isSome (test : Char → Bool) (text : Text) : Bool :=
  !text.isEmpty && text.all test

/-- A digit or an underscore. -/
def isDigitOr (c : Char) : Bool := c.isDigit || c == '_'

/-- Digits and underscores with a digit in front. -/
def isNumeral (text : Text) : Bool :=
  text.head?.any Char.isDigit && text.all isDigitOr

/-- A part of a number to the base sixty: at most 59. -/
def isSixtieth : Text → Bool
  | [c] => c.isDigit
  | [c, d] => '0' ≤ c && c ≤ '5' && d.isDigit
  | _ => false

/-- The parts of a text between colons. -/
def colonParts : Text → List Text
  | [] => [[]]
  | c :: rest => if c = ':' then [] :: colonParts rest else Text.consLine c (colonParts rest)

/-- Does a text look like an integer? -/
def isIntForm (text : Text) : Bool :=
  match dropSign text with
  | ['0'] => true
  | '0' :: 'b' :: rest => isSome (fun c => c == '0' || c == '1' || c == '_') rest
  | '0' :: 'x' :: rest =>
    isSome (fun c => c.isDigit || ('a' ≤ c && c ≤ 'f') || ('A' ≤ c && c ≤ 'F') || c == '_') rest
  | '0' :: rest => isSome (fun c => ('0' ≤ c && c ≤ '7') || c == '_') rest
  | body =>
    match colonParts body with
    | [] => false
    | first :: parts => isNumeral first && parts.all isSixtieth

/-- Does a text look like the exponent of a fraction? Its sign is needed. -/
def isExponentForm : Text → Bool
  | [] => true
  | e :: sign :: digits =>
    (e == 'e' || e == 'E') && (sign == '-' || sign == '+') && isSome Char.isDigit digits
  | _ => false

/-- Does a text look like a fraction? -/
def isRealForm (text : Text) : Bool :=
  let body := dropSign text
  let whole := body.takeWhile (· != '.')
  match body.dropWhile (· != '.') with
  | [] => false
  | _ :: rest =>
    let digits := rest.takeWhile isDigitOr
    let tail := rest.dropWhile isDigitOr
    match whole with
    | [] =>
      ["inf", "Inf", "INF"].contains (String.ofList rest) ||
        (body == text && (["nan", "NaN", "NAN"].contains (String.ofList rest) ||
          (isNumeral digits && isExponentForm tail)))
    | _ =>
      (isNumeral whole && isExponentForm tail) ||
        (tail.isEmpty && match colonParts whole with
          | first :: second :: parts => isNumeral first && (second :: parts).all isSixtieth
          | _ => false)

/-- The words for truth values. -/
def boolWords : List (String × Bool) :=
  [("yes", true), ("no", false), ("true", true), ("false", false), ("on", true), ("off", false)]

/-- A text in lower case. -/
def lower (text : Text) : String := String.ofList (text.map Char.toLower)

/-- Is a word written in lower case, in upper case, or with a capital in front? -/
def isUsualCase (text : Text) : Bool :=
  let isLower (c : Char) := c.toLower == c
  let isUpper (c : Char) := c.toUpper == c
  text.all isLower || text.all isUpper || (text.head?.any isUpper && (text.drop 1).all isLower)

/-- Does a text look like a truth value? -/
def isBoolForm (text : Text) : Bool :=
  isUsualCase text && (boolWords.lookup (lower text)).isSome

/-- Does a text look like nothing? -/
def isNullForm (text : Text) : Bool :=
  text == ['~'] || (isUsualCase text && lower text == "null")

/-- Does a text look like a moment? Without a time, month and day need two digits. -/
def isMomentForm (text : Text) : Bool :=
  (Moment.ofText? text).any fun m => m.padded || m.time.isSome

/-- The kind of a plain scalar, by its form. A line break behind the form does not matter. -/
def kindOf (text : Text) : ScalarKind :=
  if text.isEmpty then .null
  else
    let t := if text.getLast? == some '\n' then text.dropLast else text
    if isBoolForm t then .bool
    else if isRealForm t then .real
    else if isIntForm t then .int
    else if t == "<<".toList then .merge
    else if isNullForm t then .null
    else if isMomentForm t then .moment
    else if t == ['='] then .default
    else if t == ['!'] || t == ['&'] || t == ['*'] then .indicator
    else .text

/-! ## Values -/

/-- The sign in front of a number and the rest. There has to be something. -/
def signed (text : Text) : Except Refusal (Bool × Text) :=
  match text with
  | [] => .error .emptyNumber
  | '-' :: rest => .ok (true, rest)
  | '+' :: rest => .ok (false, rest)
  | rest => .ok (false, rest)

/-- A value that has to be there. -/
def orMalformed {α : Type} (a : Option α) : Except Refusal α :=
  match a with
  | some a => .ok a
  | none => .error .malformed

/-- An integer, perhaps with a mark of its base or to the base sixty. -/
def intOf (text : Text) : Except Refusal Int := do
  let (negative, body) ← signed (text.filter (· != '_'))
  let sign (i : Int) : Int := if negative then -i else i
  match body with
  | [] => .error .emptyNumber
  | ['0'] => return 0
  | '0' :: 'b' :: rest => return sign (← orMalformed (Number.integer? 2 rest))
  | '0' :: 'x' :: rest => return sign (← orMalformed (Number.integer? 16 rest))
  | '0' :: _ => return sign (← orMalformed (Number.integer? 8 body))
  | _ =>
    let parts ← orMalformed ((colonParts body).mapM (Number.integer? 10))
    return sign (parts.foldl (fun n d => 60 * n + d) 0)

/-- The sum of parts to the base sixty on top of `sum`, where the first of them counts `base`. A
base that is beyond all fractions is refused. -/
def sixtiethsFrom (sum : Number.Binary64) (base : Nat) :
    List Number.Binary64 → Except Refusal Number.Binary64
  | [] => .ok sum
  | x :: rest =>
    match x.scale? base with
    | some y => sixtiethsFrom (sum.add y) (60 * base) rest
    | none => .error .hugeNumber

/-- A fraction, perhaps to the base sixty. -/
def realOf (text : Text) : Except Refusal Number.Binary64 := do
  let (negative, body) ← signed ((text.filter (· != '_')).map Char.toLower)
  let sign (x : Number.Binary64) := if negative then x.neg else x
  if body == ".inf".toList then return sign (.infinite false)
  else if body == ".nan".toList then return .notANumber
  else
    match colonParts body with
    | [part] => return sign (← orMalformed (Number.Binary64.read? part))
    | parts =>
      let parts ← orMalformed (parts.mapM Number.Binary64.read?)
      return sign (← sixtiethsFrom (.finite 0 0) 1 parts.reverse)

/-- The value of a character among the 64 that spell bytes. -/
def sixBits? (c : Char) : Option Nat :=
  if 'A' ≤ c && c ≤ 'Z' then some (c.toNat - 'A'.toNat)
  else if 'a' ≤ c && c ≤ 'z' then some (c.toNat - 'a'.toNat + 26)
  else if c.isDigit then some (c.toNat - '0'.toNat + 52)
  else if c == '+' then some 62
  else if c == '/' then some 63
  else none

/-- Bytes spelled six bits at a time, where `pending` of `count` characters are still to be
written and `pads` equals signs have come in a row. Other characters are skipped, and enough
equals signs end the text. -/
def bytesFrom (count pending pads : Nat) : Text → Option Bytes
  | [] => if count = 0 then some [] else none
  | c :: rest =>
    if c == '=' then
      if 2 ≤ count then
        if 4 ≤ count + pads + 1 then some [] else bytesFrom count pending (pads + 1) rest
      else bytesFrom count pending pads rest
    else match sixBits? c with
      | none => bytesFrom count pending pads rest
      | some v =>
        match count with
        | 0 => bytesFrom 1 v 0 rest
        | 1 => (bytesFrom 2 (v % 16) 0 rest).map ((pending * 4 + v / 16).toUInt8 :: ·)
        | 2 => (bytesFrom 3 (v % 4) 0 rest).map ((pending * 16 + v / 4).toUInt8 :: ·)
        | _ => (bytesFrom 0 0 0 rest).map ((pending * 64 + v).toUInt8 :: ·)

/-- The bytes that a text spells. -/
def bytesOf (text : Text) : Except Refusal Bytes :=
  if text.all (·.toNat < 128) then orMalformed (bytesFrom 0 0 0 text) else .error .malformed

/-- A moment of the calendar. -/
def momentOf (text : Text) : Except Refusal Scalar :=
  match Moment.ofText? (if text.getLast? == some '\n' then text.dropLast else text) with
  | none => .error .noMoment
  | some m => if m.isValid then .ok .moment else .error .malformed

/-- The value of a scalar of a kind. -/
def Scalar.ofKind (kind : ScalarKind) (text : Text) : Except Refusal Scalar :=
  match kind with
  | .null => .ok .null
  | .bool => do return .bool (← orMalformed (boolWords.lookup (lower text)))
  | .int => do return .int (← intOf text)
  | .real => do return .real (← realOf text)
  | .moment => momentOf text
  | .text => .ok (.text text)
  | .bytes => do return .bytes (← bytesOf text)
  | .merge | .default | .indicator => .error .malformed

end HeaderCatalog.Yaml
