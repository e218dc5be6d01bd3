import RouteControl.Connection
import RouteControl.Request.HostAddress
import RouteControl.Request.Rule
import RouteControl.Request.SourceRoute

/-!
# Changes

Adding and deleting addresses, rules and source routes.  Adding an address or a source route
replaces what is there; adding a rule, or a source route that is exclusive, fails when it is there.
A change that is refused before its request is complete leaves the connection as it was.
-/

namespace RouteControl.Connection

def addAddressRequest (a : HostAddress) : Call Draft :=
  compose (ackDraft .newAddress (.create ||| .replace)) a.write

def deleteAddressRequest (a : HostAddress) : Call Draft :=
  compose (ackDraft .deleteAddress 0) a.write

def addRuleRequest (r : Rule) : Call Draft :=
  compose (ackDraft .newRule (.create ||| .exclusive)) r.write

def deleteRuleRequest (r : Rule) : Call Draft := compose (ackDraft .deleteRule 0) r.write

def addSourceRouteRequest (r : SourceRoute) (outputInterface : Option UInt32) : Call Draft := do
  ofExcept r.validate
  compose (ackDraft .newRoute r.addFlags) (r.write outputInterface true)

def deleteSourceRouteRequest (r : SourceRoute) (outputInterface : Option UInt32) :
    Call Draft := do
  ofExcept r.validate
  compose (ackDraft .deleteRoute 0) (r.write outputInterface false)

def resolve (device : InterfaceRef) : Call UInt32 := do
  ofExcept (device.resolve (← get).kernel.interfaces)

def addAddress (device : InterfaceRef) (address : Prefix) : Call Unit := do
  let index ← resolve device
  requestAck (← addAddressRequest ⟨index, address⟩)

def deleteAddress (device : InterfaceRef) (address : Prefix) : Call Unit := do
  let index ← resolve device
  requestAck (← deleteAddressRequest ⟨index, address⟩)

def addRule (r : Rule) : Call Unit := do
  requestAck (← addRuleRequest r)

def deleteRule (r : Rule) : Call Unit := do
  requestAck (← deleteRuleRequest r)

/-- The number of the interface of a route that is fit to be asked for. -/
def validatedDevice (r : SourceRoute) : Call (Option UInt32) := do
  ofExcept r.validate
  ofExcept (r.resolveDevice (← get).kernel.interfaces)

def addSourceRoute (r : SourceRoute) : Call Unit := do
  let outputInterface ← validatedDevice r
  requestAck (← addSourceRouteRequest r outputInterface)

def deleteSourceRoute (r : SourceRoute) : Call Unit := do
  let outputInterface ← validatedDevice r
  requestAck (← deleteSourceRouteRequest r outputInterface)

end RouteControl.Connection
