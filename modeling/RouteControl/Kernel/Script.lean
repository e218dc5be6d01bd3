import RouteControl.Address
import RouteControl.Attribute
import RouteControl.Bytes.Text
import RouteControl.Header.Address
import RouteControl.Header.Link
import RouteControl.Header.Route
import RouteControl.Message

/-!
# Scripted replies

What a kernel stand-in is to answer: datagrams of messages, which bear the number of the request
they answer unless they are given another, and failures to receive.
-/

namespace RouteControl.Script

/-- A message that the kernel sends, under the number of the request or one of its own. -/
structure Record where
  type : MessageType
  flags : MessageFlags
  seq : Option UInt32 := none
  payload : Bytes
  deriving DecidableEq, Repr

/-- The attributes laid out behind a header, each on the next grid line. -/
def layOut (header : Bytes) (attributes : List Attribute) : Bytes :=
  attributes.foldl (fun bytes a => bytes.padded ++ a.bytes) header

namespace Record

def message (r : Record) (seq : UInt32) : Message where
  header := {
    length := UInt32.ofNat (MessageHeader.size + r.payload.length)
    type := r.type
    flags := r.flags
    seq := r.seq.getD seq
    portId := 0 }
  payload := r.payload

def encode (r : Record) (seq : UInt32) : Bytes := (r.message seq).bytes

def ack (code : Int32) : Record where
  type := .error
  flags := 0
  payload := (ErrorReport.mk code .zero).bytes

def done : Record where
  type := .done
  flags := .multi
  payload := Bytes.zeros 4

def route (destination : Address) (length : UInt8) (source gateway : Option Address) : Record where
  type := .newRoute
  flags := .multi
  payload :=
    let header : RouteHeader := {
      family := destination.family
      destinationLength := length
      table := Table.headerByte Table.main
      scope := (if gateway.isSome then RouteScope.universe else RouteScope.link).toByte
      type := RouteType.unicast.toByte }
    layOut header.bytes
      (Attribute.mk RouteAttribute.destination destination.octets ::
        ((source.toList.map fun a => Attribute.mk RouteAttribute.preferredSource a.octets) ++
          (gateway.toList.map fun a => Attribute.mk RouteAttribute.gateway a.octets)))

def address (type : MessageType) (index : UInt32) (address : Address) (length : UInt8) :
    Record where
  type
  flags := 0
  payload :=
    let header : AddressHeader := { family := address.family, prefixLength := length, index }
    layOut header.bytes
      [⟨AddressAttribute.hostAddress, address.octets⟩, ⟨AddressAttribute.address, address.octets⟩]

def link (type : MessageType) (index : UInt32) (name : String) (flags : UInt32) : Record where
  type
  flags := 0
  payload :=
    let header : LinkHeader := { index := index.toInt32, flags }
    layOut header.bytes [⟨LinkAttribute.name, Bytes.ofTerminatedText name⟩]

end Record

/-- One answer to a receive: a datagram of messages or of any bytes, or a failure.  The kernel sends
from socket zero. -/
inductive Reply where
  | records (sender : UInt32) (records : List Record)
  | raw (sender : UInt32) (bytes : Bytes)
  | failure (kind : IoKind)
  | overflow (received capacity : Nat)
  deriving DecidableEq, Repr

end RouteControl.Script

namespace RouteControl

structure Datagram where
  sender : UInt32
  bytes : Bytes
  deriving DecidableEq, Repr

def Datagram.isFromKernel (d : Datagram) : Bool := d.sender = 0

/-- What a receive comes to, when the last request had this number. -/
def Script.Reply.receive (seq : UInt32) : Script.Reply → Except Error Datagram
  | records sender rs => .ok ⟨sender, rs.flatMap (·.encode seq)⟩
  | raw sender bytes => .ok ⟨sender, bytes⟩
  | failure kind => .error (.io kind)
  | overflow received capacity => .error (.bufferOverflow received capacity)

end RouteControl
