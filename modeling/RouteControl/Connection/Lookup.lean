import RouteControl.Connection
import RouteControl.Request.RouteQuery
import RouteControl.Selection

/-!
# Look-ups

The route to a destination, the source address for it, and the next hop on the way.  The latter two
follow gateways: from a gateway the route to that gateway is looked up, three look-ups at most.
-/

namespace RouteControl.Connection

def maxGateways : Nat := 2

/-- The network to ask for: of the length given, or the destination alone. -/
def target (destination : Address) (length : Option UInt8) : Prefix :=
  ⟨destination, length.getD destination.width⟩

def queryRoutes (query : RouteQuery) : Call (List Route) := do
  let d ← compose (dumpDraft .getRoute) query.write
  entries d .newRoute Route.decode?

def route (query : RouteQuery) : Call Route := do
  let routes ← queryRoutes query
  match Route.select query.destination query.wanted routes with
  | some r => return r
  | none => throw (.unreachable query.destination.address.text)

/-- Follows gateways to a route with a source address, with so many look-ups; none where the way
ends, or the look-ups do. -/
def followSource (wanted : Option Address) : Nat → Address → Call (Option Address)
  | 0, _ => return none
  | left + 1, here => do
    let r ← route ⟨target here none, wanted⟩
    match r.preferredSource, r.gateway with
    | some source, _ => return some source
    | none, some gateway => followSource wanted left gateway
    | none, none => return none

def sourceAddress (destination : Address) (wanted : Option Address) : Call Address := do
  match ← followSource wanted (maxGateways + 1) destination with
  | some source => return source
  | none => throw (.unreachable destination.text)

/-- Follows gateways to a hop that is reached without one, with so many look-ups; none where the
look-ups end. -/
def followHop (wanted : Option Address) : Nat → Prefix → Call (Option Address)
  | 0, _ => return none
  | left + 1, here => do
    let r ← route ⟨here, wanted⟩
    match r.gateway with
    | some gateway => followHop wanted left (target gateway none)
    | none => return some here.address

def nextHop (destination : Address) (length : Option UInt8) (wanted : Option Address) :
    Call Address := do
  match ← followHop wanted (maxGateways + 1) (target destination length) with
  | some hop => return hop
  | none => throw (.unreachable destination.text)

end RouteControl.Connection
