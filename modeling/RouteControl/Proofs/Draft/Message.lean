import RouteControl.Proofs.Attribute.Framing
import RouteControl.Proofs.Bytes.Overwrite
import RouteControl.Proofs.Draft.Header
import RouteControl.Proofs.Message.Framing

/-!
# Drafts of messages

A draft that was begun and edited is the draft of a message: header and payload lie at the front of
its buffer, and all behind them is zero (`ofMessage`).  What an edit does is told by the message
that it makes of the one before.  Data go behind the padded payload, or the edit is refused and
nothing has changed (`append_ofMessage`, `appendAttribute_ofMessage`, `openNest_ofMessage`); closing
a nest writes over a word of the payload (`closeNest_ofMessage`), and dropping it cuts the payload
(`dropNest_ofMessage`).
-/

namespace RouteControl

open MessageHeader Bytes

namespace Message

/-- The message with another payload, whose length its header tells. -/
def withPayload (payload : Bytes) (m : Message) : Message where
  header := { m.header with length := UInt32.ofNat (size + payload.length) }
  payload := payload

/-- The message with data behind its payload, on the next grid line. -/
def extended (data : Bytes) (m : Message) : Message :=
  m.withPayload (m.payload.padded ++ data)

def FitsIn (capacity : Nat) (m : Message) : Prop := size + m.payload.length ≤ capacity

instance (capacity : Nat) (m : Message) : Decidable (m.FitsIn capacity) := by
  unfold FitsIn
  infer_instance

theorem length_extended (data : Bytes) (m : Message) :
    (m.extended data).payload.length = align m.payload.length + data.length := by
  rw [extended, withPayload, List.length_append, length_padded]

theorem length_le_extended (data : Bytes) (m : Message) :
    m.payload.length ≤ (m.extended data).payload.length := by
  have hle := le_align m.payload.length
  rw [length_extended]
  omega

end Message

namespace Draft

/-- The draft of a message in a buffer of so many bytes. -/
def ofMessage (m : Message) (capacity : Nat) : Draft where
  buffer := m.header.bytes ++ (m.payload ++ zeros (capacity - (size + m.payload.length)))
  length := size + m.payload.length

variable {m : Message} {capacity : Nat}

theorem capacity_ofMessage (h : m.FitsIn capacity) :
    (ofMessage m capacity).capacity = capacity := by
  unfold Message.FitsIn at h
  simp only [Draft.capacity, ofMessage, List.length_append, length_bytes, length_zeros]
  omega

theorem header_ofMessage : (ofMessage m capacity).header = m.header :=
  readAt_zero_append _ _

theorem bytes_ofMessage : (ofMessage m capacity).bytes = m.header.bytes ++ m.payload := by
  rw [Draft.bytes, ofMessage, ← List.append_assoc]
  exact List.take_left' (by rw [List.length_append, length_bytes])

theorem drop_buffer_ofMessage :
    (ofMessage m capacity).buffer.drop (ofMessage m capacity).length =
      zeros (capacity - (size + m.payload.length)) := by
  rw [ofMessage, ← List.append_assoc]
  exact List.drop_left' (by rw [List.length_append, length_bytes])

theorem read_bytes_ofMessage (h : m.WellFormed) :
    Message.read (ofMessage m capacity).bytes = ⟨[m], none⟩ := by
  rw [bytes_ofMessage, Message.read_of_message (Message.front_unpadded h), Message.read_nil]
  rfl

theorem new_eq_ofMessage (type : MessageType) (flags : MessageFlags) (capacity : Nat) :
    new type flags capacity = ofMessage ⟨ofType type flags, []⟩ (max capacity size) := by
  obtain ⟨more, hmore⟩ := Nat.exists_eq_add_of_le (Nat.le_max_right capacity size)
  have hblank : (zeros size).length = (ofType type flags).bytes.length := by
    rw [length_zeros, length_bytes]
  have hwrite := overwrite_append [] (zeros more) hblank
  simp only [List.nil_append, List.length_nil] at hwrite
  rw [new, hmore, zeros_add, hwrite, ofMessage, List.length_nil, Nat.add_zero,
    Nat.add_sub_cancel_left, List.nil_append]

/-! ## Fields of the header -/

theorem withSeq_eq (header : MessageHeader) (rest : Bytes) (length : Nat) (seq : UInt32) :
    ({ buffer := header.bytes ++ rest, length : Draft }.withSeq seq) =
      { buffer := { header with seq }.bytes ++ rest, length } := by
  have hwidth : (ofUInt32 header.seq).length = (ofUInt32 seq).length := by
    rw [length_ofUInt32, length_ofUInt32]
  have hwrite := overwrite_append
    (ofUInt32 header.length ++ (ofUInt16 header.type ++ ofUInt16 header.flags))
    (ofUInt32 header.portId ++ rest) hwidth
  simp only [List.length_append, length_ofUInt32, length_ofUInt16, List.append_assoc] at hwrite
  simp only [withSeq, MessageHeader.bytes, List.append_assoc, hwrite]

theorem withPortId_eq (header : MessageHeader) (rest : Bytes) (length : Nat) (portId : UInt32) :
    ({ buffer := header.bytes ++ rest, length : Draft }.withPortId portId) =
      { buffer := { header with portId }.bytes ++ rest, length } := by
  have hwidth : (ofUInt32 header.portId).length = (ofUInt32 portId).length := by
    rw [length_ofUInt32, length_ofUInt32]
  have hwrite := overwrite_append
    (ofUInt32 header.length ++ (ofUInt16 header.type ++ (ofUInt16 header.flags ++
      ofUInt32 header.seq))) rest hwidth
  simp only [List.length_append, length_ofUInt32, length_ofUInt16, List.append_assoc] at hwrite
  simp only [withPortId, MessageHeader.bytes, List.append_assoc, hwrite]

theorem withLength_eq (header : MessageHeader) (rest : Bytes) (used length : Nat) :
    ({ buffer := header.bytes ++ rest, length := used : Draft }.withLength length) =
      { buffer := { header with length := UInt32.ofNat length }.bytes ++ rest, length } := by
  have hwidth : (ofUInt32 header.length).length = (ofUInt32 (UInt32.ofNat length)).length := by
    rw [length_ofUInt32, length_ofUInt32]
  have hwrite := overwrite_append [] (ofUInt16 header.type ++ (ofUInt16 header.flags ++
    (ofUInt32 header.seq ++ (ofUInt32 header.portId ++ rest)))) hwidth
  simp only [List.nil_append, List.length_nil] at hwrite
  simp only [withLength, MessageHeader.bytes, List.append_assoc, hwrite]

theorem withSeq_ofMessage (seq : UInt32) :
    (ofMessage m capacity).withSeq seq =
      ofMessage { m with header := { m.header with seq } } capacity :=
  withSeq_eq ..

theorem withPortId_ofMessage (portId : UInt32) :
    (ofMessage m capacity).withPortId portId =
      ofMessage { m with header := { m.header with portId } } capacity :=
  withPortId_eq ..

/-! ## Writing behind the payload -/

theorem align_ofMessage :
    align (ofMessage m capacity).length = size + m.payload.padded.length := by
  rw [length_padded]
  exact align_add_of_mod rfl _

theorem align_length_ofMessage (data : Bytes) :
    align (ofMessage m capacity).length + data.length =
      size + (m.extended data).payload.length := by
  rw [align_ofMessage, Message.length_extended, length_padded, Nat.add_assoc]

/-- Data put on the next grid line behind the payload, where there is room for it. -/
private theorem ofMessage_written {data : Bytes} (h : (m.extended data).FitsIn capacity) :
    let d := ofMessage m capacity
    let gap := zeros (align d.length - d.length)
    { d with buffer := d.buffer.overwrite d.length (gap ++ data) }.withLength
        (align d.length + data.length) =
      ofMessage (m.extended data) capacity := by
  intro d gap
  unfold Message.FitsIn at h
  have hgap : align d.length - d.length = align m.payload.length - m.payload.length := by
    have halign : align d.length = size + align m.payload.length := align_add_of_mod rfl _
    rw [halign]
    exact Nat.add_sub_add_left ..
  have hlen := Message.length_extended data m
  have hle := le_align m.payload.length
  have hnew : (gap ++ data).length = align m.payload.length - m.payload.length + data.length := by
    rw [List.length_append, length_zeros, hgap]
  have hfree : zeros (capacity - (size + m.payload.length)) =
      zeros (align m.payload.length - m.payload.length + data.length) ++
        zeros (capacity - (size + (m.extended data).payload.length)) := by
    rw [← zeros_add]
    congr 1
    omega
  have hfront : (m.header.bytes ++ m.payload).length = d.length := by
    rw [List.length_append, length_bytes]
    rfl
  have hbuffer : d.buffer.overwrite d.length (gap ++ data) =
      m.header.bytes ++ (m.payload.padded ++ data ++
        zeros (capacity - (size + (m.extended data).payload.length))) := by
    have hwrite := overwrite_append (m.header.bytes ++ m.payload)
      (zeros (capacity - (size + (m.extended data).payload.length)))
      ((length_zeros _).trans hnew.symm)
    rw [hfront] at hwrite
    simp only [d, ofMessage, hfree]
    rw [← List.append_assoc]
    exact hwrite.trans (by simp only [gap, hgap, padded, List.append_assoc])
  rw [hbuffer, withLength_eq, align_length_ofMessage]
  rfl

theorem append_ofMessage (h : m.FitsIn capacity) (data : Bytes) :
    append data (ofMessage m capacity) =
      if (m.extended data).FitsIn capacity then .ok () (ofMessage (m.extended data) capacity)
      else .error (.bufferTooSmall (size + (m.extended data).payload.length) capacity)
        (ofMessage m capacity) := by
  rw [append, capacity_ofMessage h, align_length_ofMessage]
  by_cases hroom : (m.extended data).FitsIn capacity
  · rw [if_neg (Nat.not_lt_of_le hroom), if_pos hroom, ← align_length_ofMessage]
    exact congrArg (EStateM.Result.ok ()) (ofMessage_written hroom)
  · rw [if_pos (Nat.lt_of_not_le hroom), if_neg hroom]

theorem appendAttribute_ofMessage (h : m.FitsIn capacity) (a : Attribute) :
    appendAttribute a.type a.payload (ofMessage m capacity) =
      if (m.extended a.bytes).FitsIn capacity ∧ a.Fits then
        .ok () (ofMessage (m.extended a.bytes) capacity)
      else .error (.bufferTooSmall (size + (m.extended a.bytes).payload.length) capacity)
        (ofMessage m capacity) := by
  have hcapacity : (ofMessage m capacity).buffer.length = capacity := capacity_ofMessage h
  have hstop : align (ofMessage m capacity).length + AttributeHeader.size + a.payload.length =
      size + (m.extended a.bytes).payload.length := by
    rw [← align_length_ofMessage, Attribute.length_bytes, Nat.add_assoc]
  rw [appendAttribute, Attribute.write, hcapacity, hstop]
  by_cases hroom : (m.extended a.bytes).FitsIn capacity ∧ a.Fits
  · obtain ⟨hfits, ha⟩ := hroom
    rw [if_neg (not_or.2 ⟨Nat.not_lt_of_le hfits, Nat.not_lt_of_le ha⟩), if_pos ⟨hfits, ha⟩,
      ← align_length_ofMessage]
    exact congrArg (EStateM.Result.ok ()) (ofMessage_written hfits)
  · have hrefused : capacity < size + (m.extended a.bytes).payload.length ∨
        Attribute.maxLength < AttributeHeader.size + a.payload.length := by
      unfold Message.FitsIn Attribute.Fits at hroom
      omega
    rw [if_pos hrefused, if_neg hroom]

/-! ## Nests -/

private theorem run_get (d : Draft) : (get : Edit Draft) d = .ok d d := rfl

theorem bind_of_ok {α β : Type} {first : Edit α} {next : α → Edit β} {a : α} {d d' : Draft}
    (h : first d = .ok a d') : (first >>= next) d = next a d' := by
  change EStateM.bind first next d = next a d'
  rw [EStateM.bind, h]

theorem bind_of_error {α β : Type} {first : Edit α} (next : α → Edit β) {e : Error} {d d' : Draft}
    (h : first d = .error e d') : (first >>= next) d = .error e d' := by
  change EStateM.bind first next d = .error e d'
  rw [EStateM.bind, h]

theorem bind_of_ite {α β : Type} {first : Edit α} (next : α → Edit β) {room : Prop}
    [Decidable room] {a : α} {e : Error} {d d' d'' : Draft}
    (h : first d = if room then .ok a d' else .error e d'') :
    (first >>= next) d = if room then next a d' else .error e d'' := by
  by_cases hroom : room
  · rw [if_pos hroom] at h ⊢
    exact bind_of_ok h
  · rw [if_neg hroom] at h ⊢
    exact bind_of_error next h

/-- The attribute that a nest is opened with. -/
def opening (kind : UInt16) : Attribute := ⟨kind ||| AttributeHeader.nestedFlag, []⟩

theorem fits_opening (kind : UInt16) : (opening kind).Fits :=
  Attribute.fits_of_length_le (Nat.zero_le _)

theorem openNest_ofMessage (h : m.FitsIn capacity) (kind : UInt16) :
    openNest kind (ofMessage m capacity) =
      if (m.extended (opening kind).bytes).FitsIn capacity then
        .ok ⟨size + m.payload.padded.length⟩ (ofMessage (m.extended (opening kind).bytes) capacity)
      else
        .error (.bufferTooSmall (size + (m.extended (opening kind).bytes).payload.length) capacity)
        (ofMessage m capacity) := by
  have hwrite := appendAttribute_ofMessage h (opening kind)
  simp only [fits_opening, and_true] at hwrite
  rw [← align_ofMessage]
  exact (bind_of_ok (run_get _)).trans (bind_of_ite _ hwrite)

private theorem overwrite_buffer_ofMessage {offset : Nat} {data : Bytes}
    (h : offset + data.length ≤ m.payload.length) :
    (ofMessage m capacity).buffer.overwrite (size + offset) data =
      m.header.bytes ++ (m.payload.overwrite offset data ++
        zeros (capacity - (size + m.payload.length))) := by
  have hright := overwrite_append_right m.header.bytes
    (m.payload ++ zeros (capacity - (size + m.payload.length))) offset data
  rwa [overwrite_append_left _ h, length_bytes] at hright

/-- Closing a nest writes the distance to the end over its length. -/
theorem closeNest_ofMessage {offset : Nat} (h : offset + 2 ≤ m.payload.length) :
    closeNest ⟨size + offset⟩ (ofMessage m capacity) =
      .ok () (ofMessage ⟨m.header, m.payload.overwrite offset
        (ofUInt16 (UInt16.ofNat (m.payload.length - offset)))⟩ capacity) := by
  have hcount : size + m.payload.length - (size + offset) = m.payload.length - offset :=
    Nat.add_sub_add_left ..
  have hroom : offset + (ofUInt16 (UInt16.ofNat (m.payload.length - offset))).length ≤
      m.payload.length := by
    rwa [length_ofUInt16]
  change EStateM.Result.ok () (Draft.mk ((ofMessage m capacity).buffer.overwrite (size + offset)
    (ofUInt16 (UInt16.ofNat (size + m.payload.length - (size + offset)))))
    (size + m.payload.length)) = _
  rw [hcount, overwrite_buffer_ofMessage hroom, ofMessage, length_overwrite hroom]

/-- Dropping a nest cuts the payload where the nest began. -/
theorem dropNest_ofMessage (hfits : m.FitsIn capacity) {offset : Nat}
    (h : offset ≤ m.payload.length) :
    dropNest ⟨size + offset⟩ (ofMessage m capacity) =
      .ok () (ofMessage (m.withPayload (m.payload.take offset)) capacity) := by
  unfold Message.FitsIn at hfits
  have hcount : size + m.payload.length - (size + offset) = m.payload.length - offset :=
    Nat.add_sub_add_left ..
  have htaken : (m.payload.take offset).length = offset := by
    rw [List.length_take, Nat.min_eq_left h]
  have hroom : offset + (zeros (m.payload.length - offset)).length ≤ m.payload.length := by
    rw [length_zeros]
    omega
  have hcut : m.payload.overwrite offset (zeros (m.payload.length - offset)) =
      m.payload.take offset ++ zeros (m.payload.length - offset) := by
    rw [overwrite, length_zeros, Nat.add_sub_cancel' h, List.drop_length, List.append_nil]
  have hfree : zeros (m.payload.length - offset) ++ zeros (capacity - (size + m.payload.length)) =
      zeros (capacity - (size + offset)) := by
    rw [← zeros_add]
    congr 1
    omega
  have hwrite : (ofMessage m capacity).buffer.overwrite (size + offset)
      (zeros (m.payload.length - offset)) =
      m.header.bytes ++ (m.payload.take offset ++ zeros (capacity - (size + offset))) := by
    rw [overwrite_buffer_ofMessage hroom, hcut, List.append_assoc, hfree]
  change EStateM.Result.ok () (withLength (size + offset) (Draft.mk
    ((ofMessage m capacity).buffer.overwrite (size + offset)
      (zeros (size + m.payload.length - (size + offset)))) (size + m.payload.length))) = _
  rw [hcount, hwrite, withLength_eq, ofMessage, Message.withPayload, htaken]

end Draft

end RouteControl
