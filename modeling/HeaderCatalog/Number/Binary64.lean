import HeaderCatalog.Number.Integer

/-!
# HeaderCatalog.Number.Binary64 — binary fractions of 53 bits

Fractions are kept as the nearest number `m * 2 ^ e` whose `m` has at most 53 bits; of two that
are equally near, the one with an even `m`. The arithmetic is exact and then rounded once.
-/

namespace HeaderCatalog.Number

/-- A binary fraction, an infinity, or no number at all. -/
inductive Binary64 where
  /-- The number `mantissa * 2 ^ exponent`. -/
  | finite (mantissa exponent : Int)
  | infinite (negative : Bool)
  | notANumber
deriving DecidableEq, Repr, Inhabited

namespace Binary64

/-- Divide and round to the nearest, a half to the even neighbour. -/
def roundDiv (num den : Nat) : Nat :=
  let q := num / den
  let r := num % den
  if den < 2 * r || (2 * r == den && q % 2 == 1) then q + 1 else q

/-- The exponent that gives the quotient of two numbers 53 bits, but not less than that of the
smallest fraction. -/
def exponentOf (num den : Nat) : Int :=
  let e := (num.log2 : Int) - den.log2 - 52
  let small :=
    if 0 ≤ e + 52 then num < den * Nat.pow 2 (e + 52).toNat
    else num * Nat.pow 2 (-(e + 52)).toNat < den
  max (if small then e - 1 else e) (-1074)

/-- The fraction nearest to the quotient of two numbers. -/
def ofQuotient (negative : Bool) (num den : Nat) : Binary64 :=
  if num = 0 then finite 0 0
  else
    let e := exponentOf num den
    let m :=
      if 0 ≤ e then roundDiv num (den * Nat.pow 2 e.toNat)
      else roundDiv (num * Nat.pow 2 (-e).toNat) den
    if 0 ≤ e && Nat.pow 2 1024 ≤ m * Nat.pow 2 e.toNat then infinite negative
    else finite (if negative then -(m : Int) else m) e

/-- The fraction nearest to `digits * 10 ^ exponent`. Far beyond both ends of the range nothing
has to be computed. -/
def ofDecimal (digits : List Nat) (exponent : Int) : Binary64 :=
  let m := ofDigits 10 digits
  let order := exponent + digits.length
  if m = 0 || order < -400 then finite 0 0
  else if 400 + digits.length < order then infinite false
  else if 0 ≤ exponent then ofQuotient false (m * Nat.pow 10 exponent.toNat) 1
  else ofQuotient false m (Nat.pow 10 (-exponent).toNat)

/-- The opposite number. -/
def neg : Binary64 → Binary64
  | finite m e => finite (-m) e
  | infinite negative => infinite !negative
  | notANumber => notANumber

/-- The nearest fraction to a signed `m * 2 ^ e`. -/
def ofScaled (m e : Int) : Binary64 :=
  if 0 ≤ e then ofQuotient (m < 0) (m.natAbs * Nat.pow 2 e.toNat) 1
  else ofQuotient (m < 0) m.natAbs (Nat.pow 2 (-e).toNat)

/-- The sum. -/
def add : Binary64 → Binary64 → Binary64
  | finite m e, finite n f =>
    let low := min e f
    ofScaled (m * Int.pow 2 (e - low).toNat + n * Int.pow 2 (f - low).toNat) low
  | infinite a, infinite b => if a = b then infinite a else notANumber
  | infinite a, finite _ _ => infinite a
  | finite _ _, infinite b => infinite b
  | _, _ => notANumber

/-- The product with a positive number. The number is rounded first, and there is no product if it
is beyond the range. -/
def scale? (n : Nat) (x : Binary64) : Option Binary64 :=
  match ofQuotient false n 1 with
  | finite k f =>
    match x with
    | finite m e => some (ofScaled (m * k) (e + f))
    | other => some other
  | _ => none

/-- The whole part; only finite numbers have one. -/
def truncate? : Binary64 → Option Int
  | finite m e => some (if 0 ≤ e then m * Int.pow 2 e.toNat else m.tdiv (Int.pow 2 (-e).toNat))
  | _ => none

/-- Is it zero? -/
def isZero : Binary64 → Bool
  | finite m _ => m == 0
  | _ => false

/-! ## Reading -/

/-- The exponent of a decimal fraction with its mark in front; nothing stands for zero. -/
def decimalExponent? : Text → Option Int
  | [] => some 0
  | c :: rest =>
    if c == 'e' || c == 'E' then
      match rest with
      | '-' :: ds => (digits ds).map fun n => -(n : Int)
      | '+' :: ds => (digits ds).map fun n => (n : Int)
      | ds => (digits ds).map fun n => (n : Int)
    else none
where
  /-- Digits alone. -/
  digits (ds : Text) : Option Nat :=
    if ds.isEmpty then none else (ds.mapM Text.decimalValue?).map (ofDigits 10)

/-- A decimal fraction without a sign. -/
def unsigned? (text : Text) : Option Binary64 :=
  let isDigit (c : Char) := (Text.decimalValue? c).isSome
  let whole := text.takeWhile isDigit
  let rest := text.dropWhile isDigit
  let (fraction, rest) := match rest with
    | '.' :: more => (more.takeWhile isDigit, more.dropWhile isDigit)
    | rest => ([], rest)
  let digits := (whole ++ fraction).filterMap Text.decimalValue?
  if digits.isEmpty then none
  else (decimalExponent? rest).map fun e => ofDecimal digits (e - fraction.length)

/-- A number that is written in lower case, as a decimal fraction or as the name of what is no
finite number. -/
def read? (text : Text) : Option Binary64 :=
  let named (t : Text) : Option Binary64 :=
    if t == "inf".toList || t == "infinity".toList then some (infinite false)
    else if t == "nan".toList then some notANumber
    else unsigned? t
  match text.trim Text.isNumberSpace with
  | '-' :: rest => (named rest).map neg
  | '+' :: rest => named rest
  | rest => named rest

end Binary64

end HeaderCatalog.Number
