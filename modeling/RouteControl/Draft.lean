import RouteControl.Attribute
import RouteControl.Bytes.Text
import RouteControl.Message

/-!
# Drafts

A draft is a message under construction: a buffer of fixed size, of which a first part is in use.
The header lies in the buffer and tells the length in use at any time.

An `Edit` changes a draft and may fail.  Each single edit that fails leaves the draft as it was;
edits done before it stay, so that a sequence that fails halfway keeps its first half.
-/

namespace RouteControl

/-- A buffer, and how many of its bytes are in use. -/
structure Draft where
  buffer : Bytes
  length : Nat
  deriving DecidableEq, Repr

abbrev Edit (α : Type) := EStateM Error Draft α

/-- The place of an attribute whose payload is being written. -/
structure Nest where
  offset : Nat
  deriving DecidableEq, Repr

namespace Draft

def defaultCapacity : Nat := 1024

/-- A draft without payload.  The buffer has room for the header at least. -/
def new (type : MessageType) (flags : MessageFlags) (capacity : Nat) : Draft :=
  { buffer := (Bytes.zeros (max capacity MessageHeader.size)).overwrite 0
      (MessageHeader.ofType type flags).bytes
    length := MessageHeader.size }

def capacity (d : Draft) : Nat := d.buffer.length

def bytes (d : Draft) : Bytes := d.buffer.take d.length

def isEmpty (d : Draft) : Bool := d.length = MessageHeader.size

def withLength (length : Nat) (d : Draft) : Draft :=
  { buffer := d.buffer.overwrite 0 (Bytes.ofUInt32 (UInt32.ofNat length)), length }

def withSeq (seq : UInt32) (d : Draft) : Draft :=
  { d with buffer := d.buffer.overwrite 8 (Bytes.ofUInt32 seq) }

def withPortId (portId : UInt32) (d : Draft) : Draft :=
  { d with buffer := d.buffer.overwrite 12 (Bytes.ofUInt32 portId) }

def header (d : Draft) : MessageHeader := MessageHeader.readAt d.buffer 0

def append (data : Bytes) : Edit Unit := fun d =>
  let start := Bytes.align d.length
  let stop := start + data.length
  if d.capacity < stop then .error (.bufferTooSmall stop d.capacity) d
  else
    let buffer := d.buffer.overwrite d.length (Bytes.zeros (start - d.length) ++ data)
    .ok () ({ d with buffer }.withLength stop)

def appendAttribute (type : UInt16) (payload : Bytes) : Edit Unit := fun d =>
  match Attribute.write ⟨type, payload⟩ d.buffer d.length with
  | .ok (buffer, length) => .ok () ({ d with buffer }.withLength length)
  | .error e => .error e d

def appendWord (type : UInt16) (word : UInt32) : Edit Unit :=
  appendAttribute type (Bytes.ofUInt32 word)

def appendText (type : UInt16) (text : String) : Edit Unit :=
  appendAttribute type (Bytes.ofTerminatedText text)

/-- Adds the header of an attribute that is to hold what is added until it is closed. -/
def openNest (type : UInt16) : Edit Nest := do
  let offset := Bytes.align (← get).length
  appendAttribute (type ||| AttributeHeader.nestedFlag) []
  return ⟨offset⟩

/-- Ends a nest here: its header tells the distance to the end of the message, cut to sixteen
bits. -/
def closeNest (nest : Nest) : Edit Unit :=
  modify fun d =>
    let length := UInt16.ofNat (d.length - nest.offset)
    { d with buffer := d.buffer.overwrite nest.offset (Bytes.ofUInt16 length) }

def isNestEmpty (nest : Nest) (d : Draft) : Bool :=
  d.length - nest.offset = AttributeHeader.size

/-- Takes back a nest and all that was added since: the draft ends where the nest began. -/
def dropNest (nest : Nest) : Edit Unit :=
  modify fun d =>
    let buffer := d.buffer.overwrite nest.offset (Bytes.zeros (d.length - nest.offset))
    { d with buffer }.withLength nest.offset

def edited (d : Draft) (edit : Edit Unit) : Except Error Draft :=
  match edit.run d with
  | .ok _ d => .ok d
  | .error e _ => .error e

end Draft

end RouteControl
