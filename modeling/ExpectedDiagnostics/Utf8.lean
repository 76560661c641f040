/-!
# UTF-8

Text as octets and back. Writing always succeeds; reading stops at the first octets that belong to
no character, and tells which they are and what is wrong with them.

The octets after a leading one are continuations, `80` to `BF`. After four leading octets the
second one has a narrower range, which keeps out overlong forms, surrogates, and numbers beyond the
last code point.
-/

namespace ExpectedDiagnostics.Utf8

/-- What is wrong with octets that belong to no character. -/
inductive Reason
  | startOctet
  | continuation
  | endOfData
  deriving DecidableEq, Repr

/-- The wording of a reason. -/
def Reason.message : Reason → String
  | startOctet => "invalid start byte"
  | continuation => "invalid continuation byte"
  | endOfData => "unexpected end of data"

/-- Octets that belong to no character: how many octets come before them, the first of them, and
how many more there are. -/
structure Fault where
  reason : Reason
  position : Nat
  octet : UInt8
  more : Nat
  deriving DecidableEq, Repr

/-- The hexadecimal text of an octet. -/
def octetText (o : UInt8) : String :=
  let digits := Nat.toDigits 16 o.toNat
  "0x" ++ .ofList (List.replicate (2 - digits.length) '0' ++ digits)

/-- The wording of a fault. -/
def Fault.message (f : Fault) : String :=
  if f.more == 0 then
    "'utf-8' codec can't decode byte " ++ octetText f.octet ++ " in position " ++
      toString f.position ++ ": " ++ f.reason.message
  else
    "'utf-8' codec can't decode bytes in position " ++ toString f.position ++ "-" ++
      toString (f.position + f.more) ++ ": " ++ f.reason.message

/-- The octets of a text. -/
def encode (cs : List Char) : List UInt8 :=
  cs.flatMap String.utf8EncodeChar

/-- Tells whether an octet continues a character. -/
def isContinuation (o : UInt8) : Bool :=
  0x80 ≤ o && o ≤ 0xBF

/-- Tells whether an octet may be the second one after a leading octet. -/
def isSecond (lead o : UInt8) : Bool :=
  if lead == 0xE0 then 0xA0 ≤ o && o ≤ 0xBF
  else if lead == 0xED then 0x80 ≤ o && o ≤ 0x9F
  else if lead == 0xF0 then 0x90 ≤ o && o ≤ 0xBF
  else if lead == 0xF4 then 0x80 ≤ o && o ≤ 0x8F
  else isContinuation o

/-- How many octets a character has, by its leading octet. -/
def length? (lead : UInt8) : Option Nat :=
  if lead ≤ 0x7F then some 1
  else if 0xC2 ≤ lead && lead ≤ 0xDF then some 2
  else if 0xE0 ≤ lead && lead ≤ 0xEF then some 3
  else if 0xF0 ≤ lead && lead ≤ 0xF4 then some 4
  else none

/-- The six low bits of an octet. -/
def payload (o : UInt8) : Nat :=
  o.toNat % 64

/-- The text of octets that come after `pos` others. -/
def decodeFrom (pos : Nat) : List UInt8 → Except Fault (List Char)
  | [] => .ok []
  | a :: rest =>
    match length? a with
    | none => .error ⟨.startOctet, pos, a, 0⟩
    | some 1 => do
      let cs ← decodeFrom (pos + 1) rest
      return Char.ofNat a.toNat :: cs
    | some n =>
      match rest with
      | [] => .error ⟨.endOfData, pos, a, 0⟩
      | b :: rest =>
        if !isSecond a b then .error ⟨.continuation, pos, a, 0⟩
        else if n == 2 then do
          let cs ← decodeFrom (pos + 2) rest
          return Char.ofNat (a.toNat % 32 * 64 + payload b) :: cs
        else
          match rest with
          | [] => .error ⟨.endOfData, pos, a, 1⟩
          | c :: rest =>
            if !isContinuation c then .error ⟨.continuation, pos, a, 1⟩
            else if n == 3 then do
              let cs ← decodeFrom (pos + 3) rest
              return Char.ofNat ((a.toNat % 16 * 64 + payload b) * 64 + payload c) :: cs
            else
              match rest with
              | [] => .error ⟨.endOfData, pos, a, 2⟩
              | d :: rest =>
                if !isContinuation d then .error ⟨.continuation, pos, a, 2⟩
                else do
                  let cs ← decodeFrom (pos + 4) rest
                  return Char.ofNat
                    (((a.toNat % 8 * 64 + payload b) * 64 + payload c) * 64 + payload d) :: cs

/-- The text of octets. -/
def decode (octets : List UInt8) : Except Fault (List Char) :=
  decodeFrom 0 octets

end ExpectedDiagnostics.Utf8
