import RouteControl.Address
import RouteControl.Error

/-!
# Rule header

The twelve bytes in front of the attributes of a rule message.
-/

namespace RouteControl

abbrev RuleAttribute := UInt16

namespace RuleAttribute

def priority : RuleAttribute := 6
def table : RuleAttribute := 15

end RuleAttribute

structure RuleHeader where
  family : Family := 0
  destinationLength : UInt8 := 0
  sourceLength : UInt8 := 0
  tos : UInt8 := 0
  table : UInt8 := 0
  /-- The first reserved byte; it lies where a route header holds the protocol. -/
  reserved1 : UInt8 := 0
  reserved2 : UInt8 := 0
  action : UInt8 := 0
  flags : UInt32 := 0
  deriving DecidableEq, Repr

namespace RuleHeader

def size : Nat := 12

def lookUpTable : UInt8 := 1

def bytes (h : RuleHeader) : Bytes :=
  [h.family, h.destinationLength, h.sourceLength, h.tos, h.table, h.reserved1, h.reserved2,
    h.action] ++ Bytes.ofUInt32 h.flags

@[simp] theorem length_bytes (h : RuleHeader) : h.bytes.length = size := by
  simp [bytes, size]

def decode (bytes : Bytes) : Except Error RuleHeader :=
  if bytes.length < size then .error (.truncated size bytes.length)
  else
    .ok {
      family := bytes.byteAt 0
      destinationLength := bytes.byteAt 1
      sourceLength := bytes.byteAt 2
      tos := bytes.byteAt 3
      table := bytes.byteAt 4
      reserved1 := bytes.byteAt 5
      reserved2 := bytes.byteAt 6
      action := bytes.byteAt 7
      flags := bytes.uint32At 8 }

end RuleHeader

end RouteControl
