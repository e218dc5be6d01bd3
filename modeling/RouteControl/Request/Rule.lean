import RouteControl.Draft
import RouteControl.Header.Route
import RouteControl.Header.Rule

/-!
# Rules

A rule sends all packets of a family to a routing table, at a priority.
-/

namespace RouteControl

/-- Rules are asked in ascending order of priority. -/
structure Rule where
  family : Family
  table : UInt32
  priority : UInt32 := 0
  deriving DecidableEq, Repr

namespace Rule

def header (r : Rule) : RuleHeader where
  family := r.family
  table := Table.headerByte r.table
  reserved1 := RouteProtocol.boot.toByte
  action := RuleHeader.lookUpTable

/-- Writes the header and the attributes of the rule: the priority in any case, the table where
the header has no room for it. -/
def write (r : Rule) : Edit Unit := do
  Draft.append r.header.bytes
  Draft.appendWord RuleAttribute.priority r.priority
  if Table.needsAttribute r.table then Draft.appendWord RuleAttribute.table r.table else pure ()

end Rule

end RouteControl
