import HeaderCatalog.Text.Digit

/-!
# HeaderCatalog.Number.Integer — integers as people write them

White space may stand around an integer, a sign in front of it, single underscores between its
digits, and the digits may be those of any script. Integers with more digits than `maxDigits` are
refused, unless the base is a power of two.
-/

namespace HeaderCatalog.Number

/-- The most digits that are read. -/
def maxDigits : Nat := 4300

/-- The value of a digit, which may be a letter. -/
def digitValue? (base : Nat) (c : Char) : Option Nat :=
  let value :=
    if 'a' ≤ c && c ≤ 'z' then some (c.toNat - 'a'.toNat + 10)
    else if 'A' ≤ c && c ≤ 'Z' then some (c.toNat - 'A'.toNat + 10)
    else Text.decimalValue? c
  value.filter (· < base)

/-- The digits of an integer, of which there is at least one; between two of them an underscore
may stand. -/
def digits? (base : Nat) : Text → Option (List Nat)
  | [] => none
  | [c] => (digitValue? base c).map ([·])
  | c :: '_' :: rest => do return (← digitValue? base c) :: (← digits? base rest)
  | c :: rest => do return (← digitValue? base c) :: (← digits? base rest)

/-- The number that digits stand for. -/
def ofDigits (base : Nat) (digits : List Nat) : Nat :=
  digits.foldl (fun n d => base * n + d) 0

/-- The letters behind a zero that say the base. -/
def baseMarks : List (Nat × List Char) :=
  [(2, ['b', 'B']), (8, ['o', 'O']), (16, ['x', 'X'])]

/-- Remove the mark of the base from the front of a number, with one underscore behind it. -/
def dropBaseMark (base : Nat) : Text → Text
  | '0' :: c :: rest =>
    if ((baseMarks.lookup base).getD []).contains c then
      match rest with
      | '_' :: rest => rest
      | rest => rest
    else '0' :: c :: rest
  | text => text

/-- An integer without a sign. -/
def natural? (base : Nat) (text : Text) : Option Nat := do
  let digits ← digits? base (dropBaseMark base text)
  if maxDigits < digits.length && !(baseMarks.any (·.1 == base)) then none
  else return ofDigits base digits

/-- An integer in a base. -/
def integer? (base : Nat) (text : Text) : Option Int :=
  match text.trim Text.isNumberSpace with
  | '-' :: rest => (natural? base rest).map fun n => -(n : Int)
  | '+' :: rest => (natural? base rest).map fun n => (n : Int)
  | rest => (natural? base rest).map fun n => (n : Int)

end HeaderCatalog.Number
