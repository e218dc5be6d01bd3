import RouteControl.Address
import RouteControl.Text.Decimal

/-!
# Address text: reading

Version 4 is four decimal octets without leading zeros.  Version 6 is eight groups of one to four
hexadecimal digits, of which the last two may be written as a version 4 address; in one place two
colons may stand for one or more zero groups, and a version 4 address is then allowed behind them
only.  Blanks, zones and signs are refused.
-/

namespace RouteControl.Address

/-- An octet in decimal: no more digits than needed, and no more than 255. -/
def octet? (digits : List Char) : Option Nat :=
  if digits.head? = some '0' ∧ digits ≠ ['0'] then none
  else Decimal.within 255 (Decimal.digits? digits)

def quad? (text : List Char) : Option (BitVec 32) :=
  match (text.splitOn '.').map octet? with
  | [some a, some b, some c, some d] => some (BitVec.ofNat 32 (((a * 256 + b) * 256 + c) * 256 + d))
  | _ => none

def hexDigit? (c : Char) : Option Nat :=
  if c.isDigit then some (c.toNat - 48)
  else if 'a' ≤ c ∧ c ≤ 'f' then some (c.toNat - 87)
  else if 'A' ≤ c ∧ c ≤ 'F' then some (c.toNat - 55)
  else none

def group? (digits : List Char) : Option Nat :=
  if digits = [] ∨ 4 < digits.length then none
  else (digits.mapM hexDigit?).map fun values => values.foldl (fun n value => 16 * n + value) 0

/-- The groups that the fields between colons stand for.  A version 4 address stands for two, and
is allowed as the last field where `endsInQuad` says so. -/
def groups? (endsInQuad : Bool) : List (List Char) → Option (List Nat)
  | [] => some []
  | [last] =>
    match group? last, endsInQuad, quad? last with
    | some group, _, _ => some [group]
    | none, true, some bits => some [bits.toNat / 65536, bits.toNat % 65536]
    | none, _, _ => none
  | field :: rest =>
    match group? field, groups? endsInQuad rest with
    | some group, some others => some (group :: others)
    | _, _ => none

def fields (text : List Char) : List (List Char) :=
  if text = [] then [] else text.splitOn ':'

/-- What stands before and behind the first two adjacent colons. -/
def elision? : List Char → Option (List Char × List Char)
  | ':' :: ':' :: rest => some ([], rest)
  | c :: rest => (elision? rest).map fun (before, behind) => (c :: before, behind)
  | [] => none

def ofGroups (groups : List Nat) : BitVec 128 :=
  BitVec.ofNat 128 (groups.foldl (fun n group => 65536 * n + group) 0)

def hextet? (text : List Char) : Option (BitVec 128) :=
  match elision? text with
  | none =>
    match groups? true (fields text) with
    | some groups => if groups.length = 8 then some (ofGroups groups) else none
    | none => none
  | some (before, behind) =>
    match groups? false (fields before), groups? true (fields behind) with
    | some head, some tail =>
      if head.length + tail.length ≤ 7 then
        some (ofGroups (head ++ List.replicate (8 - head.length - tail.length) 0 ++ tail))
      else none
    | _, _ => none

def parse? (text : String) : Option Address :=
  match quad? text.toList with
  | some bits => some (v4 bits)
  | none => (hextet? text.toList).map v6

end RouteControl.Address
