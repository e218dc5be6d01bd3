import RouteControl.Message

/-!
# Responses

A response is what the kernel says to one request: messages one behind the other.  It is read in
two ways, as the acknowledgement of a change (`ack`) and as a list of entries (`dumpPayloads`).
-/

namespace RouteControl

structure Response where
  bytes : Bytes
  deriving DecidableEq, Repr

namespace Response

def ofMessages (messages : List Message) : Response := ⟨messages.flatMap Message.bytes⟩

def read (r : Response) : Message.Reading := Message.read r.bytes

def isEmpty (r : Response) : Bool := r.bytes.isEmpty

/-- The kind of the first message; none where there is not even a header. -/
def leadingKind? (r : Response) : Option MessageKind :=
  match MessageHeader.decode r.bytes with
  | .ok h => some h.kind
  | .error _ => none

/-- The code in the first message, where that is a whole error message. -/
def leadingError? (r : Response) : Option Int32 :=
  match r.read.messages with
  | [] => none
  | m :: _ =>
    if m.header.isError then
      match ErrorReport.decode m.payload with
      | .ok report => some report.code
      | .error _ => none
    else none

/-- What an error message says: nothing for an acknowledgement, else the error. -/
def checkReport (m : Message) : Except Error Unit := do
  let report ← ErrorReport.decode m.payload
  if report.isAck then return () else throw (.ofErrno report.code)

/-- What is left to say when the messages end without an answer. -/
def unanswered : Option UInt32 → Error
  | some length => Message.Reading.faultError length
  | none => .notAcknowledged

/-- The acknowledgement in some messages: what the first error message says, if none that marks
the end comes before it. -/
def ackIn (fault : Option UInt32) : List Message → Except Error Unit
  | [] => .error (unanswered fault)
  | m :: ms =>
    match m.kind with
    | .error => checkReport m
    | .done => .error .notAcknowledged
    | _ => ackIn fault ms

def ack (r : Response) : Except Error Unit := ackIn r.read.fault r.read.messages

/-- The payloads of one kind in some messages up to the one that marks the end.  The first error
message that is no acknowledgement, or that is cut short, fails the whole. -/
def payloadsIn (expected : MessageKind) (fault : Option UInt32) :
    List Message → Except Error (List Bytes)
  | [] =>
    match fault with
    | some length => .error (Message.Reading.faultError length)
    | none => .ok []
  | m :: ms =>
    match m.kind with
    | .error => do
      checkReport m
      payloadsIn expected fault ms
    | .done => .ok []
    | kind => do
      let payloads ← payloadsIn expected fault ms
      return if kind = expected then m.payload :: payloads else payloads

/-- Whether a response that lists entries of one kind may start with this kind of message. -/
def mayLead (expected : MessageKind) : Option MessageKind → Bool
  | some kind => kind = .error ∨ kind = .done ∨ kind = expected
  | none => false

def dumpPayloads (r : Response) (expected : MessageKind) : Except Error (List Bytes) :=
  if mayLead expected r.leadingKind? then payloadsIn expected r.read.fault r.read.messages
  else .error .notAcknowledged

end Response

end RouteControl
