import RouteControl.Attribute
import RouteControl.Draft
import RouteControl.Header.Address

/-!
# Address records

An address of an interface as the kernel reports it.  The record takes the attributes in order; one
that does not hold an address of the record's family is passed over.
-/

namespace RouteControl

structure InterfaceAddress where
  index : UInt32
  family : Family
  prefixLength : UInt8
  hostAddress : Option Address
  address : Option Address
  deriving DecidableEq, Repr

namespace InterfaceAddress

/-- The address that this host owns: its own where it is given, the other one where it is not. -/
def primary (r : InterfaceAddress) : Option Address := r.hostAddress <|> r.address

/-- The address of the peer: there only where both are given and differ. -/
def peer (r : InterfaceAddress) : Option Address :=
  match r.hostAddress, r.address with
  | some own, some other => if own = other then none else some other
  | _, _ => none

def ofHeader (h : AddressHeader) : InterfaceAddress :=
  ⟨h.index, h.family, h.prefixLength, none, none⟩

def absorb (r : InterfaceAddress) (a : Attribute) : InterfaceAddress :=
  let value := Address.ofOctetsIn? r.family a.payload
  if a.kind = AddressAttribute.hostAddress then { r with hostAddress := value <|> r.hostAddress }
  else if a.kind = AddressAttribute.address then { r with address := value <|> r.address }
  else r

/-- The record in the payload of an address message; none where the header is cut short. -/
def decode? (payload : Bytes) : Option InterfaceAddress :=
  Attribute.record? AddressHeader.decode AddressHeader.size ofHeader absorb payload

theorem isSome_decode? (payload : Bytes) :
    (decode? payload).isSome ↔ AddressHeader.size ≤ payload.length :=
  Attribute.isSome_record? rfl

def dumpHeader : Bytes := ({} : AddressHeader).bytes

def writeDumpHeader : Edit Unit := Draft.append dumpHeader

end InterfaceAddress

end RouteControl
