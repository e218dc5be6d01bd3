import RouteControl.Bytes

/-!
# Hexadecimal

Byte strings in text: two digits a byte, the high digit first.  Written in lower case, read in
either case.
-/

namespace RouteControl.Bytes

def hexDigit (value : Nat) : Char :=
  if value < 10 then Char.ofNat (48 + value) else Char.ofNat (87 + value)

def hexValue? (digit : Char) : Option Nat :=
  if '0' ≤ digit ∧ digit ≤ '9' then some (digit.toNat - 48)
  else if 'a' ≤ digit ∧ digit ≤ 'f' then some (digit.toNat - 87)
  else if 'A' ≤ digit ∧ digit ≤ 'F' then some (digit.toNat - 55)
  else none

def toHex (bytes : Bytes) : String :=
  String.ofList (bytes.flatMap fun b => [hexDigit (b.toNat / 16), hexDigit (b.toNat % 16)])

/-- Reads pairs of digits behind the bytes read so far, which are held in reverse. -/
def readHex (read : Bytes) : List Char → Option Bytes
  | [] => some read.reverse
  | [_] => none
  | high :: low :: rest =>
    match hexValue? high, hexValue? low with
    | some h, some l => readHex (UInt8.ofNat (16 * h + l) :: read) rest
    | _, _ => none

/-- The bytes that hexadecimal text denotes; none for an odd count or another character. -/
def ofHex? (text : String) : Option Bytes := readHex [] text.toList

end RouteControl.Bytes
