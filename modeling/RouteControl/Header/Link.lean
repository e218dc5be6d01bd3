import RouteControl.Address
import RouteControl.Error

/-!
# Link header

The sixteen bytes in front of the attributes of a link message.
-/

namespace RouteControl

abbrev LinkAttribute := UInt16

def LinkAttribute.name : LinkAttribute := 3

namespace LinkFlags

def up : UInt32 := 0x1

def loopback : UInt32 := 0x8

def running : UInt32 := 0x40

def lowerUp : UInt32 := 0x10000

end LinkFlags

structure LinkHeader where
  family : Family := 0
  type : UInt16 := 0
  index : Int32 := 0
  flags : UInt32 := 0
  change : UInt32 := 0
  deriving DecidableEq, Repr

namespace LinkHeader

def size : Nat := 16

/-- The header as it is laid out; the second byte is unused. -/
def bytes (h : LinkHeader) : Bytes :=
  [h.family, 0] ++ Bytes.ofUInt16 h.type ++ Bytes.ofUInt32 h.index.toUInt32 ++
    Bytes.ofUInt32 h.flags ++ Bytes.ofUInt32 h.change

@[simp] theorem length_bytes (h : LinkHeader) : h.bytes.length = size := by
  simp [bytes, size]

def decode (bytes : Bytes) : Except Error LinkHeader :=
  if bytes.length < size then .error (.truncated size bytes.length)
  else
    .ok {
      family := bytes.byteAt 0
      type := bytes.uint16At 2
      index := (bytes.uint32At 4).toInt32
      flags := bytes.uint32At 8
      change := bytes.uint32At 12 }

end LinkHeader

end RouteControl
