import RouteControl.Draft
import RouteControl.Header.Address
import RouteControl.Header.Route
import RouteControl.Prefix

/-!
# Host addresses

An address, with its prefix length, on an interface of this host.
-/

namespace RouteControl

structure HostAddress where
  index : UInt32
  address : Prefix
  deriving DecidableEq, Repr

namespace HostAddress

def header (a : HostAddress) : AddressHeader where
  family := a.address.address.family
  prefixLength := a.address.length
  scope := RouteScope.universe.toByte
  index := a.index

def write (a : HostAddress) : Edit Unit := do
  Draft.append a.header.bytes
  Draft.appendAttribute AddressAttribute.hostAddress a.address.address.octets

end HostAddress

end RouteControl
