import RouteControl.Bytes.Word
import RouteControl.Error
import RouteControl.Message.Kind

/-!
# Messages

A netlink message is a sixteen-byte header and a payload, padded to the four-byte grid.  Messages
follow one another in a datagram.

`read` splits a byte string into messages.  It stops where fewer bytes are left than a header has,
and at the first length that is below that of a header or beyond the end; the result is the
messages and, in the second case, the faulty length.  A fault is therefore the last thing that is
read, and there is at most one.

Headers are read in place, which asks for an address on the four-byte grid.  A datagram's buffer is
taken to start there; `front` steps by whole words, so it never leaves the grid.  The refusal of a
header that stands off the grid has no counterpart here.
-/

namespace RouteControl

/-- The length is that of header and payload, without the padding; replies are matched with requests
by the sequence number. -/
structure MessageHeader where
  length : UInt32
  type : MessageType
  flags : MessageFlags
  seq : UInt32
  portId : UInt32
  deriving DecidableEq, Repr, Inhabited

namespace MessageHeader

def size : Nat := 16

def ofType (type : MessageType) (flags : MessageFlags) : MessageHeader :=
  ⟨UInt32.ofNat size, type, flags, 0, 0⟩

def zero : MessageHeader := ⟨0, 0, 0, 0, 0⟩

def kind (h : MessageHeader) : MessageKind := .ofType h.type

def isError (h : MessageHeader) : Bool := h.type = .error

def isDone (h : MessageHeader) : Bool := h.type = .done

def isMulti (h : MessageHeader) : Bool := h.flags &&& .multi ≠ 0

/-- Whether a message with this header is the last of a response: the end of several, or one that
is not one of several. -/
def isFinal (h : MessageHeader) : Bool := h.isDone || !h.isMulti

def bytes (h : MessageHeader) : Bytes :=
  Bytes.ofUInt32 h.length ++ Bytes.ofUInt16 h.type ++ Bytes.ofUInt16 h.flags ++
    Bytes.ofUInt32 h.seq ++ Bytes.ofUInt32 h.portId

@[simp] theorem length_bytes (h : MessageHeader) : h.bytes.length = size := by
  simp [bytes, size]

def readAt (bytes : Bytes) (offset : Nat) : MessageHeader :=
  ⟨bytes.uint32At offset, bytes.uint16At (offset + 4), bytes.uint16At (offset + 6),
    bytes.uint32At (offset + 8), bytes.uint32At (offset + 12)⟩

def decode (bytes : Bytes) : Except Error MessageHeader :=
  if bytes.length < size then .error (.truncated size bytes.length) else .ok (readAt bytes 0)

end MessageHeader

structure Message where
  header : MessageHeader
  payload : Bytes
  deriving DecidableEq, Repr

namespace Message

def kind (m : Message) : MessageKind := m.header.kind

def bytes (m : Message) : Bytes := Bytes.padded (m.header.bytes ++ m.payload)

/-- What stands at the start of some bytes, which are taken to start on the grid: too little for a
header, a length below that of a header or beyond the end, or a message and what comes behind it and
its padding. -/
inductive Front where
  | finished
  | faulty (length : UInt32)
  | message (m : Message) (rest : Bytes)

def front (bytes : Bytes) : Front :=
  if bytes.length < MessageHeader.size then .finished
  else
    let header := MessageHeader.readAt bytes 0
    let length := header.length.toNat
    if length < MessageHeader.size ∨ bytes.length < length then .faulty header.length
    else
      .message ⟨header, (bytes.take length).drop MessageHeader.size⟩
        (bytes.drop (Bytes.align length))

theorem length_front_lt {bytes rest : Bytes} {m : Message} (h : front bytes = .message m rest) :
    rest.length < bytes.length := by
  simp only [front] at h
  split at h
  · simp at h
  · split at h
    · simp at h
    · rename_i hsize hwell
      simp only [MessageHeader.size, not_or, Nat.not_lt] at hsize hwell
      have hle := Bytes.le_align (MessageHeader.readAt bytes 0).length.toNat
      simp only [Front.message.injEq] at h
      rw [← h.2, List.length_drop]
      omega

/-- The messages in some bytes, and the faulty length that ended the reading, if one did. -/
structure Reading where
  messages : List Message
  fault : Option UInt32
  deriving DecidableEq, Repr

namespace Reading

def cons (m : Message) (r : Reading) : Reading := ⟨m :: r.messages, r.fault⟩

def faultError (length : UInt32) : Error :=
  .invalidMessage s!"invalid message length: {length}"

end Reading

def read (bytes : Bytes) : Reading :=
  match _h : front bytes with
  | .finished => ⟨[], none⟩
  | .faulty length => ⟨[], some length⟩
  | .message m rest => .cons m (read rest)
termination_by bytes.length
decreasing_by exact length_front_lt ‹_›

end Message

/-- The payload of an error message: a code, which is zero for an acknowledgement, and the header
of the request it answers. -/
structure ErrorReport where
  code : Int32
  request : MessageHeader
  deriving DecidableEq, Repr

namespace ErrorReport

def size : Nat := 20

def isAck (r : ErrorReport) : Bool := r.code = 0

def bytes (r : ErrorReport) : Bytes := Bytes.ofUInt32 r.code.toUInt32 ++ r.request.bytes

def decode (bytes : Bytes) : Except Error ErrorReport :=
  if bytes.length < size then .error (.truncated size bytes.length)
  else .ok ⟨(bytes.uint32At 0).toInt32, MessageHeader.readAt bytes 4⟩

end ErrorReport

end RouteControl
