import RouteControl.Address

/-!
# Address text: writing

Version 4 is written as four decimal octets.  Version 6 is written as eight groups in lower-case
hexadecimal, where the longest run of two or more zero groups, the first of equals, is left out
between two colons; an address that maps one of version 4 ends in that address.
-/

namespace RouteControl.Address

def quadText (bits : BitVec 32) : String :=
  ".".intercalate ((octets (v4 bits)).map fun octet => toString octet.toNat)

def groups (bits : BitVec 128) : List Nat :=
  (List.range 8).map fun i => bits.toNat >>> (16 * (7 - i)) % 65536

def groupsText (groups : List Nat) : String :=
  ":".intercalate (groups.map fun group => String.ofList (Nat.toDigits 16 group))

def zerosFrom (groups : List Nat) (start : Nat) : Nat :=
  ((groups.drop start).takeWhile (· = 0)).length

/-- The start of the longest run of zero groups and its length; the first of equals. -/
def longestRun (groups : List Nat) : Nat × Nat :=
  (List.range groups.length).foldl
    (fun best start =>
      if best.2 < zerosFrom groups start then (start, zerosFrom groups start) else best)
    (0, 0)

/-- The text of a version 6 address that maps none of version 4. -/
def compressedText (groups : List Nat) : String :=
  let (start, length) := longestRun groups
  if length < 2 then groupsText groups
  else groupsText (groups.take start) ++ "::" ++ groupsText (groups.drop (start + length))

def text : Address → String
  | v4 bits => quadText bits
  | v6 bits =>
    if bits.toNat >>> 32 = 0xFFFF then "::ffff:" ++ quadText (bits.truncate 32)
    else compressedText (groups bits)

instance : ToString Address := ⟨text⟩

end RouteControl.Address
