import HeaderCatalog.Text

/-!
# HeaderCatalog.Text.Utf8 — characters as bytes

Strict UTF-8: no overlong forms, no surrogates, nothing beyond the last code point. A defect says
which bytes do not stand for a character and why: the bytes that begin a character properly are
taken together, so that decoding could go on behind them.
-/

namespace HeaderCatalog

/-- The contents of a file. -/
abbrev Bytes := List UInt8

namespace Utf8

/-- Why bytes stand for no character. -/
inductive Reason where
  | invalidStart
  | invalidContinuation
  | unexpectedEnd
deriving DecidableEq, Repr, Inhabited

/-- Bytes that stand for no character: their first offset, the offset past the last one, the
first of them, and the reason. -/
structure Defect where
  start : Nat
  stop : Nat
  first : UInt8
  reason : Reason
deriving DecidableEq, Repr, Inhabited

/-- A byte that continues a character. -/
def isContinuation (b : UInt8) : Bool :=
  0x80 ≤ b && b ≤ 0xBF

/-- May `c` follow the byte `b` that starts a character of three bytes? -/
def secondOfThree (b c : UInt8) : Bool :=
  isContinuation c && !(b == 0xE0 && c < 0xA0) && !(b == 0xED && 0xA0 ≤ c)

/-- May `c` follow the byte `b` that starts a character of four bytes? -/
def secondOfFour (b c : UInt8) : Bool :=
  isContinuation c && !(b == 0xF0 && c < 0x90) && !(b == 0xF4 && 0x90 ≤ c)

/-- The character with the given leading bits and continuation bytes. -/
def combine (lead : Nat) (rest : Bytes) : Char :=
  Char.ofNat (rest.foldl (fun code b => code * 64 + (b.toNat - 0x80)) lead)

/-- Decode bytes that begin at offset `pos`. -/
def decodeFrom (pos : Nat) : Bytes → Except Defect Text
  | [] => .ok []
  | b :: rest =>
    if b < 0x80 then do return Char.ofNat b.toNat :: (← decodeFrom (pos + 1) rest)
    else if b < 0xC2 || 0xF4 < b then .error ⟨pos, pos + 1, b, .invalidStart⟩
    else
      match rest with
      | [] => .error ⟨pos, pos + 1, b, .unexpectedEnd⟩
      | c :: rest =>
        if b < 0xE0 then
          if isContinuation c then do
            return combine (b.toNat - 0xC0) [c] :: (← decodeFrom (pos + 2) rest)
          else .error ⟨pos, pos + 1, b, .invalidContinuation⟩
        else if !(if b < 0xF0 then secondOfThree b c else secondOfFour b c) then
          .error ⟨pos, pos + 1, b, .invalidContinuation⟩
        else
          match rest with
          | [] => .error ⟨pos, pos + 2, b, .unexpectedEnd⟩
          | d :: rest =>
            if !isContinuation d then .error ⟨pos, pos + 2, b, .invalidContinuation⟩
            else if b < 0xF0 then do
              return combine (b.toNat - 0xE0) [c, d] :: (← decodeFrom (pos + 3) rest)
            else
              match rest with
              | [] => .error ⟨pos, pos + 3, b, .unexpectedEnd⟩
              | e :: rest =>
                if !isContinuation e then .error ⟨pos, pos + 3, b, .invalidContinuation⟩
                else do
                  return combine (b.toNat - 0xF0) [c, d, e] :: (← decodeFrom (pos + 4) rest)

/-- Decode bytes, or say where and why they are not UTF-8. -/
def decode (bytes : Bytes) : Except Defect Text :=
  decodeFrom 0 bytes

/-- The bytes of a text. -/
def encode (text : Text) : Bytes :=
  text.flatMap String.utf8EncodeChar

/-- The words for a reason. -/
def Reason.words : Reason → String
  | .invalidStart => "invalid start byte"
  | .invalidContinuation => "invalid continuation byte"
  | .unexpectedEnd => "unexpected end of data"

/-- A byte in two hexadecimal digits. -/
def hexByte (b : UInt8) : String :=
  let digits := Nat.toDigits 16 b.toNat
  String.ofList (List.replicate (2 - digits.length) '0' ++ digits)

/-- A defect in words. -/
def Defect.message (d : Defect) : String :=
  let bytes :=
    if d.stop = d.start + 1 then "byte 0x" ++ hexByte d.first ++ " in position " ++ toString d.start
    else "bytes in position " ++ toString d.start ++ "-" ++ toString (d.stop - 1)
  "'utf-8' codec can't decode " ++ bytes ++ ": " ++ d.reason.words

end Utf8

end HeaderCatalog
