import RouteControl.Record.Route

/-!
# Route selection

Which of several routes serves a destination.  Only routes to single hosts take part that cover
the destination and are no more specific than asked for.  A route that names the source address
wanted, or names any where none is wanted, goes before one that does not; then the lower priority
goes first, then the longer prefix, then the earlier route.
-/

namespace RouteControl.Route

/-- Whether a route takes part: it leads to single hosts, is no more specific than asked for, and
covers the destination. -/
def isEligible (query : Prefix) (r : Route) : Bool :=
  (r.routeType = .unicast ∨ r.routeType = .local) ∧ r.prefixLength ≤ query.length ∧
    r.covers query.address

/-- Whether a route has the source address wanted, or any where none is wanted. -/
def isPrimary (wanted : Option Address) (r : Route) : Bool :=
  match r.preferredSource, wanted with
  | some source, some w => source = w
  | some _, none => true
  | none, _ => false

def outranks (r best : Route) : Bool :=
  r.priority < best.priority ∨ (r.priority = best.priority ∧ best.prefixLength < r.prefixLength)

/-- Whether a route that comes later takes the place of the best so far. -/
def replaces (wanted : Option Address) (r best : Route) : Bool :=
  match r.isPrimary wanted, best.isPrimary wanted with
  | true, false => true
  | false, true => false
  | _, _ => r.outranks best

def better (query : Prefix) (wanted : Option Address) (best : Option Route) (r : Route) :
    Option Route :=
  if !r.isEligible query then best
  else
    match best with
    | none => some r
    | some b => if r.replaces wanted b then some r else some b

/-- The route that serves a destination, for a source address that may be wanted. -/
def select (query : Prefix) (wanted : Option Address) (routes : List Route) : Option Route :=
  routes.foldl (better query wanted) none

end RouteControl.Route
