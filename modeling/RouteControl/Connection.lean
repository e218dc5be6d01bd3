import RouteControl.Connection.Settings
import RouteControl.Kernel
import RouteControl.Response

/-!
# Connections

A connection sends requests to the kernel and collects the responses, one request at a time.  Each
request gets the next sequence number.  The response to it is made of the messages that bear this
number, in the order in which they come from the kernel, up to one that is final; all other
messages, and all datagrams from elsewhere, are passed over.  When the response starts with the
error "busy", the same message is sent again, as often as the settings allow.

A `Call` changes a connection and may fail; what it did to the connection before it failed stays
done.  Time is what waiting takes: the clock moves when, and only when, a receive is given up.
-/

namespace RouteControl

structure Connection where
  settings : Settings := default
  kernel : Kernel := {}
  nextSeq : UInt32 := 1
  clock : Duration := .zero
  deriving Repr

abbrev Call (α : Type) := EStateM Error Connection α

namespace Connection

def run {α : Type} (call : Call α) (c : Connection) : Except Error α × Connection :=
  match EStateM.run call c with
  | .ok a c => (.ok a, c)
  | .error e c => (.error e, c)

def ofExcept {α : Type} : Except Error α → Call α
  | .ok a => pure a
  | .error e => throw e

def takeSeq : Call UInt32 :=
  modifyGet fun c => (c.nextSeq, { c with nextSeq := c.nextSeq + 1 })

def draft (type : MessageType) (flags : MessageFlags) : Call Draft := do
  return Draft.new type flags (← get).settings.requestCapacity

def ackDraft (type : MessageType) (flags : MessageFlags) : Call Draft :=
  draft type (.request ||| .ack ||| flags)

def dumpDraft (type : MessageType) : Call Draft := draft type (.request ||| .dump)

def compose (draft : Call Draft) (edit : Edit Unit) : Call Draft := do
  ofExcept ((← draft).edited edit)

/-- The messages of one datagram that answer the request of this number, up to a final one, and
whether there is a final one. -/
def answering (seq : UInt32) : List Message → List Message × Bool
  | [] => ([], false)
  | m :: ms =>
    if m.header.seq ≠ seq then answering seq ms
    else if m.header.isFinal then ([m], true)
    else
      let (more, complete) := answering seq ms
      (m :: more, complete)

/-- What receiving replies to one request comes to: all messages of the response, a receive that
failed before they were there, or no more replies. -/
inductive Gathered where
  | complete (messages : List Message)
  | failed (e : Error)
  | silence
  deriving DecidableEq, Repr

def Gathered.behind (earlier : List Message) : Gathered → Gathered
  | complete messages => complete (earlier ++ messages)
  | failed e => failed e
  | silence => silence

/-- Receives replies until the response to the request of this number is complete; `stamp` is the
number that the kernel answers to.  Also tells the replies that are left. -/
def gather (seq stamp : UInt32) : List Script.Reply → Gathered × List Script.Reply
  | [] => (.silence, [])
  | reply :: rest =>
    match reply.receive stamp with
    | .error e => (.failed e, rest)
    | .ok datagram =>
      let (messages, complete) :=
        if datagram.isFromKernel then answering seq (Message.read datagram.bytes).messages
        else ([], false)
      if complete then (.complete messages, rest)
      else
        let (gathered, left) := gather seq stamp rest
        (gathered.behind messages, left)

def withReplies (replies : List Script.Reply) (c : Connection) : Connection :=
  { c with kernel := { c.kernel with replies } }

def send (message : Bytes) : Call Unit := fun c =>
  match c.kernel.send message with
  | .ok kernel => .ok () { c with kernel }
  | .error e => .error e c

/-- Receives the response to the request of this number.  When nothing more comes, waiting is
given up after the time that the settings allow for one datagram. -/
def receive (seq : UInt32) : Call Response := fun c =>
  match gather seq c.kernel.lastSeq c.kernel.replies with
  | (.complete messages, left) => .ok (.ofMessages messages) (c.withReplies left)
  | (.failed e, left) => .error e (c.withReplies left)
  | (.silence, left) =>
    let limit := c.settings.timeout
    .error (.timeout limit) { c.withReplies left with clock := c.clock + limit }

def busyCode : Int32 := -16

/-- Sends a message and receives the response, again while the kernel is busy, at most so many
times. -/
def transmit (message : Bytes) (seq : UInt32) : Nat → Call Response
  | 0 => do throw (.retryExhausted (← get).settings.transmissions)
  | left + 1 => do
    send message
    let response ← receive seq
    if response.leadingError? = some busyCode then transmit message seq left else return response

/-- Sends the message drafted, under the next sequence number, and receives the response. -/
def request (d : Draft) : Call Response := do
  let seq ← takeSeq
  let c ← get
  let message := ((d.withSeq seq).withPortId c.kernel.portId).bytes
  transmit message seq c.settings.transmissions

def requestAck (d : Draft) : Call Unit := do
  let response ← request d
  ofExcept response.ack

/-- Sends a request for entries of one kind, and checks that the response lists such. -/
def dump (d : Draft) (expected : MessageKind) : Call Response := do
  let response ← request d
  let _ ← ofExcept (response.dumpPayloads expected)
  return response

/-- The entries of one kind that a request is answered with.  Those that do not decode are left
out; an error anywhere in the response fails the whole. -/
def entries {α : Type} (d : Draft) (expected : MessageKind) (decode? : Bytes → Option α) :
    Call (List α) := do
  let response ← request d
  let payloads ← ofExcept (response.dumpPayloads expected)
  return payloads.filterMap decode?

end Connection

end RouteControl
