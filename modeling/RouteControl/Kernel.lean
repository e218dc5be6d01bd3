import RouteControl.Interface
import RouteControl.Kernel.Script

/-!
# The kernel's side of a connection

A stand-in for the kernel: it notes what it is sent and answers from a script, one reply to each
receive.  Once the script is used up, a receive never comes to an end.
-/

namespace RouteControl

/-- The kernel as a connection sees it: the replies still to come, and the messages sent so far, in
order.  The number of the last one is zero before the first.  Every send fails if one does. -/
structure Kernel where
  portId : UInt32 := 4242
  replies : List Script.Reply := []
  sent : List Bytes := []
  lastSeq : UInt32 := 0
  sendFailure : Option IoKind := none
  interfaces : Interface.Table := []
  deriving Repr

namespace Kernel

def send (message : Bytes) (k : Kernel) : Except Error Kernel :=
  match k.sendFailure with
  | some kind => .error (.transmitFailure kind)
  | none =>
    let lastSeq :=
      match MessageHeader.decode message with
      | .ok h => h.seq
      | .error _ => k.lastSeq
    .ok { k with sent := k.sent ++ [message], lastSeq }

end Kernel

end RouteControl
