import RouteControl.Draft
import RouteControl.Header.Route
import RouteControl.Interface
import RouteControl.Prefix

/-!
# Source routes

A source route names the source address for packets to a network, and may name a gateway, an
interface and metrics.  `validate` says which source routes are asked of the kernel at all: never
one to everywhere, none with a prefix longer than its address, and none that mixes versions.
-/

namespace RouteControl

/-- Metrics of a route; those that are none are left to the kernel. -/
structure RouteMetrics where
  mtu : Option UInt32 := none
  advertisedMss : Option UInt32 := none
  deriving DecidableEq, Repr

namespace RouteMetrics

def hasAny (m : RouteMetrics) : Bool := m.mtu.isSome || m.advertisedMss.isSome

def writeMetric (metric : RouteMetric) : Option UInt32 → Edit Unit
  | some value => Draft.appendWord metric value
  | none => pure ()

def write (m : RouteMetrics) : Edit Unit :=
  if m.hasAny then do
    let nest ← Draft.openNest RouteAttribute.metrics
    writeMetric .mtu m.mtu
    writeMetric .advertisedMss m.advertisedMss
    Draft.closeNest nest
  else pure ()

end RouteMetrics

/-- A route that names the source address for packets to a network. -/
structure SourceRoute where
  destination : Prefix
  source : Address
  gateway : Option Address := none
  device : Option InterfaceRef := none
  table : UInt32 := Table.main
  metrics : RouteMetrics := {}
  exclusive : Bool := false
  deriving DecidableEq, Repr

namespace SourceRoute

/-- The addresses that have to be of the destination's version, in the order they are looked at. -/
def otherAddresses (r : SourceRoute) : List Address := r.source :: r.gateway.toList

/-- Whether the route may be asked of the kernel; the first fault counts. -/
def validate (r : SourceRoute) : Except Error Unit :=
  let destination := r.destination.address
  let length := r.destination.length
  if length = 0 then
    .error (.notSupported
      s!"refusing to install source route for default destination {destination}/0")
  else if destination.width < length then
    .error (.invalidMessage s!"prefix length {length} too long for {destination}")
  else
    match r.otherAddresses.find? fun a => a.family ≠ destination.family with
    | some a =>
      .error (.invalidMessage s!"address family of {a} does not match {destination}")
    | none => .ok ()

def header (r : SourceRoute) : RouteHeader where
  family := r.destination.address.family
  destinationLength := r.destination.length
  table := Table.headerByte r.table
  protocol := RouteProtocol.static.toByte
  scope := RouteScope.universe.toByte
  type := RouteType.unicast.toByte

def writeAddress (kind : RouteAttribute) : Option Address → Edit Unit
  | some a => Draft.appendAttribute kind a.octets
  | none => pure ()

def writeWord (kind : RouteAttribute) : Option UInt32 → Edit Unit
  | some word => Draft.appendWord kind word
  | none => pure ()

/-- Writes the header and the attributes of the route, with the number of its interface. -/
def write (r : SourceRoute) (outputInterface : Option UInt32) (withMetrics : Bool) : Edit Unit := do
  Draft.append r.header.bytes
  writeAddress .destination (some r.destination.address)
  writeAddress .preferredSource (some r.source)
  writeAddress .gateway r.gateway
  writeWord .outputInterface outputInterface
  writeWord .table (if Table.needsAttribute r.table then some r.table else none)
  if withMetrics then r.metrics.write else pure ()

def addFlags (r : SourceRoute) : MessageFlags :=
  if r.exclusive then .create ||| .exclusive else .create ||| .replace

def resolveDevice (host : Interface.Table) (r : SourceRoute) : Except Error (Option UInt32) :=
  match r.device with
  | none => .ok none
  | some device => (device.resolve host).map some

end SourceRoute

end RouteControl
