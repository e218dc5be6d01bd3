import RouteControl.Address
import RouteControl.Error

/-!
# Address header

The eight bytes in front of the attributes of an address message.
-/

namespace RouteControl

abbrev AddressAttribute := UInt16

namespace AddressAttribute

/-- The address of the network, or of the peer on a link of two. -/
def address : AddressAttribute := 1

def hostAddress : AddressAttribute := 2

end AddressAttribute

structure AddressHeader where
  family : Family := 0
  prefixLength : UInt8 := 0
  flags : UInt8 := 0
  scope : UInt8 := 0
  index : UInt32 := 0
  deriving DecidableEq, Repr

namespace AddressHeader

def size : Nat := 8

def bytes (h : AddressHeader) : Bytes :=
  [h.family, h.prefixLength, h.flags, h.scope] ++ Bytes.ofUInt32 h.index

@[simp] theorem length_bytes (h : AddressHeader) : h.bytes.length = size := by
  simp [bytes, size]

def decode (bytes : Bytes) : Except Error AddressHeader :=
  if bytes.length < size then .error (.truncated size bytes.length)
  else
    .ok {
      family := bytes.byteAt 0
      prefixLength := bytes.byteAt 1
      flags := bytes.byteAt 2
      scope := bytes.byteAt 3
      index := bytes.uint32At 4 }

end AddressHeader

end RouteControl
