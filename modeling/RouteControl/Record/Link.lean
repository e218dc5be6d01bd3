import RouteControl.Attribute
import RouteControl.Draft
import RouteControl.Header.Link

/-!
# Link records

A link as the kernel reports it.  The record takes the attributes in order, and a later name takes
the place of an earlier one.
-/

namespace RouteControl

structure Link where
  index : UInt32
  name : Option String
  flags : UInt32
  deriving DecidableEq, Repr

namespace Link

def isUp (l : Link) : Bool := l.flags &&& LinkFlags.up ≠ 0

def isLoopback (l : Link) : Bool := l.flags &&& LinkFlags.loopback ≠ 0

def nameOr (l : Link) (default : String) : String := l.name.getD default

def ofHeader (h : LinkHeader) : Link := ⟨h.index.toUInt32, none, h.flags⟩

/-- The link after one more attribute.  A name that is no text leaves the link without a name. -/
def absorb (l : Link) (a : Attribute) : Link :=
  if a.kind = LinkAttribute.name then { l with name := a.payload.text? } else l

/-- The link in the payload of a link message; none where the header is cut short. -/
def decode? (payload : Bytes) : Option Link :=
  Attribute.record? LinkHeader.decode LinkHeader.size ofHeader absorb payload

theorem isSome_decode? (payload : Bytes) :
    (decode? payload).isSome ↔ LinkHeader.size ≤ payload.length :=
  Attribute.isSome_record? rfl

def dumpHeader : Bytes := ({} : LinkHeader).bytes

def writeDumpHeader : Edit Unit := Draft.append dumpHeader

end Link

end RouteControl
