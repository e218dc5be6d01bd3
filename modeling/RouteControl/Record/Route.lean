import RouteControl.Attribute
import RouteControl.Draft
import RouteControl.Header.Route
import RouteControl.Prefix

/-!
# Route records

A route as the kernel reports it.  The record takes the attributes in order; one whose payload does
not have the width of its kind, or of the route's family, is passed over.
-/

namespace RouteControl

/-- A route to a network, all zeros where the kernel names none.  The lower the priority, the
better. -/
structure Route where
  family : Family
  destination : Address
  prefixLength : UInt8
  gateway : Option Address
  preferredSource : Option Address
  outputInterface : Option UInt32
  table : UInt32
  priority : UInt32
  type : UInt8
  protocol : UInt8
  scope : UInt8
  deriving DecidableEq, Repr

namespace Route

def routeType (r : Route) : RouteType := .ofByte r.type

def routeProtocol (r : Route) : RouteProtocol := .ofByte r.protocol

def routeScope (r : Route) : RouteScope := .ofByte r.scope

def isV4 (r : Route) : Bool := r.family = .inet

def isDefault (r : Route) : Bool := r.prefixLength = 0

def network (r : Route) : Prefix := ⟨r.destination, r.prefixLength⟩

def covers (r : Route) (a : Address) : Bool := r.network.contains a

/-- The network in text; a route that leads everywhere is the default. -/
def destinationText (r : Route) : String := if r.isDefault then "default" else r.network.text

def ofHeader (h : RouteHeader) : Route where
  family := h.family
  destination := .unspecifiedIn h.family
  prefixLength := h.destinationLength
  gateway := none
  preferredSource := none
  outputInterface := none
  table := h.table.toUInt32
  priority := 0
  type := h.type
  protocol := h.protocol
  scope := h.scope

def absorb (r : Route) (a : Attribute) : Route :=
  let address := Address.ofOctetsIn? r.family a.payload
  let word := a.payload.uint32?
  if a.kind = RouteAttribute.destination then
    { r with destination := address.getD r.destination }
  else if a.kind = RouteAttribute.gateway then { r with gateway := address <|> r.gateway }
  else if a.kind = RouteAttribute.preferredSource then
    { r with preferredSource := address <|> r.preferredSource }
  else if a.kind = RouteAttribute.outputInterface then
    { r with outputInterface := word <|> r.outputInterface }
  else if a.kind = RouteAttribute.priority then { r with priority := word.getD r.priority }
  else if a.kind = RouteAttribute.table then { r with table := word.getD r.table }
  else r

/-- The record in the payload of a route message; none where the header is cut short. -/
def decode? (payload : Bytes) : Option Route :=
  Attribute.record? RouteHeader.decode RouteHeader.size ofHeader absorb payload

theorem isSome_decode? (payload : Bytes) :
    (decode? payload).isSome ↔ RouteHeader.size ≤ payload.length :=
  Attribute.isSome_record? rfl

def dumpHeader : Bytes := ({} : RouteHeader).bytes

def writeDumpHeader : Edit Unit := Draft.append dumpHeader

end Route

end RouteControl
