import RouteControl.Bytes.Word

/-!
# Addresses

Internet addresses of both versions, their families, and the octets in which they travel.

An address is the word of its octets in network order; `ofOctets?_octets` says that nothing is
lost on the way.
-/

namespace RouteControl

abbrev Family := UInt8

namespace Family

def unspecified : Family := 0

def inet : Family := 2

def inet6 : Family := 10

end Family

inductive Address where
  | v4 (bits : BitVec 32)
  | v6 (bits : BitVec 128)
  deriving DecidableEq, Repr

namespace Address

instance : Inhabited Address := ⟨v4 0⟩

def isV4 : Address → Bool
  | v4 _ => true
  | v6 _ => false

def family : Address → Family
  | v4 _ => .inet
  | v6 _ => .inet6

/-- The number of bits in an address, which is the length of the longest prefix. -/
def width : Address → UInt8
  | v4 _ => 32
  | v6 _ => 128

def octets : Address → Bytes
  | v4 bits => Bytes.bigEndian 4 bits.toNat
  | v6 bits => Bytes.bigEndian 16 bits.toNat

def ofOctets? (octets : Bytes) : Option Address :=
  if octets.length = 4 then some (v4 (BitVec.ofNat 32 (Bytes.ofBigEndian octets)))
  else if octets.length = 16 then some (v6 (BitVec.ofNat 128 (Bytes.ofBigEndian octets)))
  else none

theorem length_octets (a : Address) : a.octets.length = if a.isV4 then 4 else 16 := by
  cases a <;> simp [octets, isV4]

theorem ofOctets?_octets (a : Address) : ofOctets? a.octets = some a := by
  cases a with
  | v4 bits =>
    have h : bits.toNat % Nat.pow 256 4 = bits.toNat := Nat.mod_eq_of_lt bits.isLt
    simp only [ofOctets?, octets, Bytes.length_bigEndian, Bytes.ofBigEndian_bigEndian, h]
    simp
  | v6 bits =>
    have h : bits.toNat % Nat.pow 256 16 = bits.toNat := Nat.mod_eq_of_lt bits.isLt
    simp only [ofOctets?, octets, Bytes.length_bigEndian, Bytes.ofBigEndian_bigEndian, h]
    simp

/-- The address made of the octets, where a family of addresses allows that many: four for
version 4, sixteen for version 6, either for no family in particular, none for another. -/
def ofOctetsIn? (family : Family) (octets : Bytes) : Option Address :=
  if (family = .inet ∧ octets.length = 4) ∨ (family = .inet6 ∧ octets.length = 16) ∨
      family = .unspecified then
    ofOctets? octets
  else none

theorem ofOctetsIn?_octets (a : Address) : ofOctetsIn? a.family a.octets = some a := by
  cases a with
  | v4 bits => rw [ofOctetsIn?, if_pos (Or.inl ⟨rfl, length_octets _⟩), ofOctets?_octets]
  | v6 bits => rw [ofOctetsIn?, if_pos (Or.inr (Or.inl ⟨rfl, length_octets _⟩)), ofOctets?_octets]

/-- The address of all zeros: of version 6 in that family, of version 4 in any other. -/
def unspecifiedIn (family : Family) : Address :=
  if family = .inet6 then v6 0 else v4 0

end Address

end RouteControl
