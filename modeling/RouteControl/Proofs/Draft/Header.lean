import RouteControl.Draft
import RouteControl.Proofs.Message.Header

/-!
# Headers of drafts

A draft has room for its header, uses at least that much, and no more than it has
(`Draft.WellFormed`).  What such a draft is sent as decodes to the header of the draft with the
sequence number and the sender filled in (`decode_bytes_withSeq_withPortId`).
-/

namespace RouteControl.Draft

open MessageHeader

variable {d : Draft}

/-- The bytes in use hold a header at least, and lie in the buffer. -/
structure WellFormed (d : Draft) : Prop where
  size_le : size ≤ d.length
  length_le : d.length ≤ d.capacity

theorem WellFormed.size_le_capacity (h : d.WellFormed) : size ≤ d.buffer.length :=
  Nat.le_trans h.size_le h.length_le

theorem wellFormed_new (type : MessageType) (flags : MessageFlags) (capacity : Nat) :
    (new type flags capacity).WellFormed where
  size_le := Nat.le_refl _
  length_le := by
    have hmax := Nat.le_max_right capacity size
    have hroom : 0 + (ofType type flags).bytes.length ≤
        (Bytes.zeros (max capacity size)).length := by
      rw [length_bytes, Bytes.length_zeros, Nat.zero_add]
      exact hmax
    rw [Draft.capacity, new, Bytes.length_overwrite hroom, Bytes.length_zeros]
    exact hmax

theorem withSeq_buffer (seq : UInt32) :
    (d.withSeq seq).buffer = d.buffer.overwrite 8 (Bytes.ofUInt32 seq) := rfl

/-- What a draft is sent as differs from it in the number and the sender alone, as far as the
header goes. -/
theorem decode_bytes_withSeq_withPortId (h : d.WellFormed) (seq portId : UInt32) :
    MessageHeader.decode ((d.withSeq seq).withPortId portId).bytes =
      .ok { d.header with seq, portId } := by
  have hbuffer := h.size_le_capacity
  have hlength := h.size_le
  have hle := h.length_le
  simp only [Draft.capacity] at hle
  have hseq : (d.withSeq seq).buffer.length = d.buffer.length := by
    rw [withSeq_buffer, Bytes.length_overwrite (by simp [size] at hbuffer ⊢; omega)]
  have hportId : ((d.withSeq seq).withPortId portId).buffer.length = d.buffer.length := by
    rw [withPortId, Bytes.length_overwrite (by simp [size] at hbuffer ⊢; omega), hseq]
  have hbytes : ((d.withSeq seq).withPortId portId).bytes =
      ((d.withSeq seq).withPortId portId).buffer.take d.length := rfl
  rw [MessageHeader.decode, hbytes, if_neg (by rw [List.length_take, hportId]; omega),
    readAt_take _ hlength, withPortId, readAt_overwrite_portId (by omega), withSeq_buffer,
    readAt_overwrite_seq hbuffer]
  rfl

end RouteControl.Draft
