import RouteControl.Bytes.Word
import RouteControl.Error

/-!
# Attributes

A netlink attribute is a four-byte header, its length and type, and a payload.  Each attribute
starts on the four-byte grid, and its length does not count the padding behind it.

`write` puts one attribute at the end of what a buffer holds, or refuses and changes nothing.
`walk` reads the attributes in a byte string up to the first place where none is well formed;
each step leaves fewer bytes (`length_next?_lt`), so the walk ends on any input.

As with messages, headers are read in place and the bytes are taken to start on the four-byte grid.
A message's payload does, and so does what stands behind the header of a record or of an attribute,
since all of these are whole words long; `next?` steps by whole words.
-/

namespace RouteControl

/-- The length is that of header and payload, without the padding; the type is a kind and the two
flag bits above it. -/
structure AttributeHeader where
  length : UInt16
  type : UInt16
  deriving DecidableEq, Repr, Inhabited

namespace AttributeHeader

def size : Nat := 4

def nestedFlag : UInt16 := 0x8000

def kindMask : UInt16 := 0x3FFF

/-- The header for a payload of so many bytes; the length is cut to sixteen bits. -/
def ofPayload (type : UInt16) (payloadLength : Nat) : AttributeHeader :=
  ⟨UInt16.ofNat (size + payloadLength), type⟩

def kind (h : AttributeHeader) : UInt16 := h.type &&& kindMask

def isNested (h : AttributeHeader) : Bool := h.type &&& nestedFlag ≠ 0

/-- The length of the payload; zero where the length does not even count the header. -/
def payloadLength (h : AttributeHeader) : Nat := h.length.toNat - size

def bytes (h : AttributeHeader) : Bytes := Bytes.ofUInt16 h.length ++ Bytes.ofUInt16 h.type

@[simp] theorem length_bytes (h : AttributeHeader) : h.bytes.length = size := by
  simp [bytes, size]

def decode (bytes : Bytes) : Except Error AttributeHeader :=
  if bytes.length < size then .error (.truncated size bytes.length)
  else .ok ⟨bytes.uint16At 0, bytes.uint16At 2⟩

end AttributeHeader

structure Attribute where
  type : UInt16
  payload : Bytes
  deriving DecidableEq, Repr

namespace Attribute

def header (a : Attribute) : AttributeHeader := .ofPayload a.type a.payload.length

def kind (a : Attribute) : UInt16 := a.header.kind

def bytes (a : Attribute) : Bytes := a.header.bytes ++ a.payload

@[simp] theorem length_bytes (a : Attribute) :
    a.bytes.length = AttributeHeader.size + a.payload.length := by
  simp [bytes]

def maxLength : Nat := 65535

/-- Puts the attribute on the next grid line behind the first `length` bytes of the buffer, with
zeros in between, and tells the new length.  Where the attribute does not fit into the buffer, or
its length into the header, the answer is an error and there is no new buffer. -/
def write (a : Attribute) (buffer : Bytes) (length : Nat) : Except Error (Bytes × Nat) :=
  let start := Bytes.align length
  let stop := start + AttributeHeader.size + a.payload.length
  if buffer.length < stop ∨ maxLength < AttributeHeader.size + a.payload.length then
    .error (.bufferTooSmall stop buffer.length)
  else
    .ok (buffer.overwrite length (Bytes.zeros (start - length) ++ a.bytes), stop)

def isExhausted (bytes : Bytes) : Bool := bytes.length < AttributeHeader.size

/-- The attribute at the start of the bytes, which are taken to start on the grid, and what comes
behind it and its padding; none where no header is left, or where the length is below that of a
header or beyond the end. -/
def next? (bytes : Bytes) : Option (Attribute × Bytes) :=
  let length := (bytes.uint16At 0).toNat
  if isExhausted bytes ∨ length < AttributeHeader.size ∨ bytes.length < length then none
  else
    some (⟨bytes.uint16At 2, (bytes.take length).drop AttributeHeader.size⟩,
      bytes.drop (Bytes.align length))

theorem length_next?_lt {bytes rest : Bytes} {a : Attribute} (h : next? bytes = some (a, rest)) :
    rest.length < bytes.length := by
  simp only [next?] at h
  split at h
  · simp at h
  · rename_i hwell
    simp only [isExhausted, AttributeHeader.size, not_or, Nat.not_lt] at hwell
    have hle := Bytes.le_align (bytes.uint16At 0).toNat
    simp only [Option.some.injEq, Prod.mk.injEq] at h
    rw [← h.2, List.length_drop]
    omega

/-- The attributes in the bytes, up to the first place where none is well formed. -/
def walk (bytes : Bytes) : List Attribute :=
  match _h : next? bytes with
  | none => []
  | some (a, rest) => a :: walk rest
termination_by bytes.length
decreasing_by exact length_next?_lt ‹_›

section

variable {η ρ : Type} {decode : Bytes → Except Error η} {size : Nat} {ofHeader : η → ρ}
  {absorb : ρ → Attribute → ρ} {payload : Bytes} {h : η}

/-- A record: what the header at the front of a payload says, and what the attributes behind it make
of that, one after the other.  There is none where the header is cut short. -/
def record? (decode : Bytes → Except Error η) (size : Nat) (ofHeader : η → ρ)
    (absorb : ρ → Attribute → ρ) (payload : Bytes) : Option ρ :=
  match decode payload with
  | .ok h => some ((walk (payload.drop size)).foldl absorb (ofHeader h))
  | .error _ => none

theorem record?_of_decode (hdecode : decode payload = .ok h) :
    record? decode size ofHeader absorb payload =
      some ((walk (payload.drop size)).foldl absorb (ofHeader h)) := by
  rw [record?, hdecode]

theorem exists_of_record?_eq_some {r : ρ}
    (hr : record? decode size ofHeader absorb payload = some r) :
    ∃ h, decode payload = .ok h := by
  cases hdecode : decode payload with
  | error e =>
      rw [record?, hdecode] at hr
      cases hr
  | ok h => exact ⟨h, rfl⟩

theorem record?_eq_some_iff {bytes : η → Bytes}
    (hdecode : ∀ {payload h}, decode payload = .ok h ↔ ∃ rest, payload = bytes h ++ rest)
    (hsize : ∀ h, (bytes h).length = size) {r : ρ} :
    record? decode size ofHeader absorb payload = some r ↔
      ∃ h rest, payload = bytes h ++ rest ∧ r = (walk rest).foldl absorb (ofHeader h) := by
  constructor
  · intro hr
    obtain ⟨h, hheader⟩ := exists_of_record?_eq_some hr
    obtain ⟨rest, rfl⟩ := hdecode.1 hheader
    rw [record?_of_decode hheader, List.drop_left' (hsize h)] at hr
    exact ⟨h, rest, rfl, (Option.some.inj hr).symm⟩
  · rintro ⟨h, rest, rfl, rfl⟩
    rw [record?_of_decode (hdecode.2 ⟨rest, rfl⟩), List.drop_left' (hsize h)]

theorem isSome_record? {e : Error}
    (hdecode : decode payload = if payload.length < size then .error e else .ok h) :
    (record? decode size ofHeader absorb payload).isSome ↔ size ≤ payload.length := by
  rw [record?, hdecode]
  by_cases hshort : payload.length < size
  · rw [if_pos hshort]
    simp [hshort]
  · rw [if_neg hshort]
    simp [Nat.le_of_not_lt hshort]

end

end Attribute

end RouteControl
