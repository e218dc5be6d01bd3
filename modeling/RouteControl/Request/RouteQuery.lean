import RouteControl.Draft
import RouteControl.Header.Route
import RouteControl.Prefix

/-!
# Route queries

What a request for routes to a network holds.  The kernel answers with all routes all the same, so
that the answer has to be searched; the attributes are hints.
-/

namespace RouteControl

/-- A question for the route to a network, for a source address that may be wanted. -/
structure RouteQuery where
  destination : Prefix
  wanted : Option Address := none
  deriving DecidableEq, Repr

namespace RouteQuery

def header (q : RouteQuery) : RouteHeader where
  family := q.destination.address.family
  destinationLength := q.destination.length

def isHost (q : RouteQuery) : Bool := q.destination.length = q.destination.address.width

def write (q : RouteQuery) : Edit Unit := do
  Draft.append q.header.bytes
  if q.isHost then
    Draft.appendAttribute RouteAttribute.destination q.destination.address.octets
  match q.wanted with
  | some source => Draft.appendAttribute RouteAttribute.preferredSource source.octets
  | none => pure ()

end RouteQuery

end RouteControl
