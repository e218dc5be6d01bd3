import RouteControl.Address
import RouteControl.Error

/-!
# Route header

The twelve bytes in front of the attributes of a route message, and the meaning of three of them:
who installed the route, how far its destination is, and what is done with packets to it.  A
number without meaning of its own counts as the first of its sort.
-/

namespace RouteControl

abbrev RouteAttribute := UInt16

namespace RouteAttribute

def destination : RouteAttribute := 1
def outputInterface : RouteAttribute := 4
def gateway : RouteAttribute := 5
def priority : RouteAttribute := 6
def preferredSource : RouteAttribute := 7

/-- A list of attributes of its own, named by `RouteMetric`. -/
def metrics : RouteAttribute := 8

def table : RouteAttribute := 15

end RouteAttribute

abbrev RouteMetric := UInt16

namespace RouteMetric

def mtu : RouteMetric := 2
def advertisedMss : RouteMetric := 8

end RouteMetric

inductive RouteProtocol where
  | unspecified
  | redirect
  | kernel
  | boot
  | static
  deriving DecidableEq, Repr

inductive RouteScope where
  | universe
  | site
  | link
  | host
  | nowhere
  deriving DecidableEq, Repr

inductive RouteType where
  | unspecified
  | unicast
  | local
  | broadcast
  | anycast
  | multicast
  | blackhole
  | unreachable
  | prohibit
  deriving DecidableEq, Repr

def RouteProtocol.ofByte : UInt8 → RouteProtocol
  | 1 => .redirect
  | 2 => .kernel
  | 3 => .boot
  | 4 => .static
  | _ => .unspecified

def RouteProtocol.toByte : RouteProtocol → UInt8
  | .unspecified => 0
  | .redirect => 1
  | .kernel => 2
  | .boot => 3
  | .static => 4

def RouteScope.ofByte : UInt8 → RouteScope
  | 200 => .site
  | 253 => .link
  | 254 => .host
  | 255 => .nowhere
  | _ => .universe

def RouteScope.toByte : RouteScope → UInt8
  | .universe => 0
  | .site => 200
  | .link => 253
  | .host => 254
  | .nowhere => 255

def RouteType.ofByte : UInt8 → RouteType
  | 1 => .unicast
  | 2 => .local
  | 3 => .broadcast
  | 4 => .anycast
  | 5 => .multicast
  | 6 => .blackhole
  | 7 => .unreachable
  | 8 => .prohibit
  | _ => .unspecified

def RouteType.toByte : RouteType → UInt8
  | .unspecified => 0
  | .unicast => 1
  | .local => 2
  | .broadcast => 3
  | .anycast => 4
  | .multicast => 5
  | .blackhole => 6
  | .unreachable => 7
  | .prohibit => 8

theorem RouteProtocol.ofByte_toByte (p : RouteProtocol) : ofByte p.toByte = p := by
  cases p <;> rfl

theorem RouteScope.ofByte_toByte (s : RouteScope) : ofByte s.toByte = s := by
  cases s <;> rfl

theorem RouteType.ofByte_toByte (t : RouteType) : ofByte t.toByte = t := by
  cases t <;> rfl

namespace Table

def main : UInt32 := 254

/-- The byte by which a header names a table; zero for a number that does not fit, which then
needs an attribute of its own. -/
def headerByte (table : UInt32) : UInt8 := if 255 < table then 0 else table.toUInt8

def needsAttribute (table : UInt32) : Bool := 255 < table

end Table

structure RouteHeader where
  family : Family := 0
  destinationLength : UInt8 := 0
  sourceLength : UInt8 := 0
  tos : UInt8 := 0
  table : UInt8 := 0
  protocol : UInt8 := 0
  scope : UInt8 := 0
  type : UInt8 := 0
  flags : UInt32 := 0
  deriving DecidableEq, Repr

namespace RouteHeader

def size : Nat := 12

def bytes (h : RouteHeader) : Bytes :=
  [h.family, h.destinationLength, h.sourceLength, h.tos, h.table, h.protocol, h.scope, h.type] ++
    Bytes.ofUInt32 h.flags

@[simp] theorem length_bytes (h : RouteHeader) : h.bytes.length = size := by
  simp [bytes, size]

def decode (bytes : Bytes) : Except Error RouteHeader :=
  if bytes.length < size then .error (.truncated size bytes.length)
  else
    .ok {
      family := bytes.byteAt 0
      destinationLength := bytes.byteAt 1
      sourceLength := bytes.byteAt 2
      tos := bytes.byteAt 3
      table := bytes.byteAt 4
      protocol := bytes.byteAt 5
      scope := bytes.byteAt 6
      type := bytes.byteAt 7
      flags := bytes.uint32At 8 }

end RouteHeader

end RouteControl
