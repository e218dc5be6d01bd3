import RouteControl.Message
import RouteControl.Proofs.Bytes.Overwrite

/-!
# Headers in bytes

A header is read from the sixteen bytes at its offset and from nothing else.  So it is read back
from where it was laid out (`readAt_append`), and writing over one of its fields changes this field
alone (`readAt_overwrite_seq`, `readAt_overwrite_portId`).
-/

namespace RouteControl.MessageHeader

theorem readAt_append (front : Bytes) (h : MessageHeader) (rest : Bytes) :
    readAt (front ++ (h.bytes ++ rest)) front.length = h := by
  obtain ⟨length, type, flags, seq, portId⟩ := h
  have hlength := Bytes.uint32At_append front length
    (Bytes.ofUInt16 type ++ (Bytes.ofUInt16 flags ++ (Bytes.ofUInt32 seq ++
      (Bytes.ofUInt32 portId ++ rest))))
  have htype := Bytes.uint16At_append (front ++ Bytes.ofUInt32 length) type
    (Bytes.ofUInt16 flags ++ (Bytes.ofUInt32 seq ++ (Bytes.ofUInt32 portId ++ rest)))
  have hflags := Bytes.uint16At_append (front ++ (Bytes.ofUInt32 length ++ Bytes.ofUInt16 type))
    flags (Bytes.ofUInt32 seq ++ (Bytes.ofUInt32 portId ++ rest))
  have hseq := Bytes.uint32At_append
    (front ++ (Bytes.ofUInt32 length ++ (Bytes.ofUInt16 type ++ Bytes.ofUInt16 flags))) seq
    (Bytes.ofUInt32 portId ++ rest)
  have hportId := Bytes.uint32At_append
    (front ++ (Bytes.ofUInt32 length ++ (Bytes.ofUInt16 type ++ (Bytes.ofUInt16 flags ++
      Bytes.ofUInt32 seq)))) portId rest
  simp only [List.append_assoc, List.length_append, Bytes.length_ofUInt32,
    Bytes.length_ofUInt16] at hlength htype hflags hseq hportId
  simp only [readAt, bytes, List.append_assoc, hlength, htype, hflags, hseq, hportId]

theorem readAt_zero_append (h : MessageHeader) (rest : Bytes) :
    readAt (h.bytes ++ rest) 0 = h :=
  readAt_append [] h rest

theorem decode_append (h : MessageHeader) (rest : Bytes) : decode (h.bytes ++ rest) = .ok h := by
  rw [decode, if_neg (by simp), readAt_zero_append]

theorem readAt_take (bytes : Bytes) {length : Nat} (h : size ≤ length) :
    readAt (bytes.take length) 0 = readAt bytes 0 := by
  simp only [size] at h
  simp only [readAt, mk.injEq]
  exact ⟨Bytes.uint32At_congr (Bytes.take_drop_take _ (by omega)),
    Bytes.uint16At_congr (Bytes.take_drop_take _ (by omega)),
    Bytes.uint16At_congr (Bytes.take_drop_take _ (by omega)),
    Bytes.uint32At_congr (Bytes.take_drop_take _ (by omega)),
    Bytes.uint32At_congr (Bytes.take_drop_take _ (by omega))⟩

theorem readAt_overwrite_seq {buffer : Bytes} (h : size ≤ buffer.length) (seq : UInt32) :
    readAt (buffer.overwrite 8 (Bytes.ofUInt32 seq)) 0 = { readAt buffer 0 with seq } := by
  simp only [size] at h
  simp only [readAt, mk.injEq]
  exact ⟨Bytes.uint32At_congr (Bytes.take_drop_overwrite_of_le _ (by omega) (by omega)),
    Bytes.uint16At_congr (Bytes.take_drop_overwrite_of_le _ (by omega) (by omega)),
    Bytes.uint16At_congr (Bytes.take_drop_overwrite_of_le _ (by omega) (by omega)),
    Bytes.uint32At_overwrite (by omega) seq,
    Bytes.uint32At_congr (Bytes.take_drop_overwrite_of_ge _ (by omega) _ (by simp))⟩

theorem readAt_overwrite_portId {buffer : Bytes} (h : size ≤ buffer.length) (portId : UInt32) :
    readAt (buffer.overwrite 12 (Bytes.ofUInt32 portId)) 0 = { readAt buffer 0 with portId } := by
  simp only [size] at h
  simp only [readAt, mk.injEq]
  exact ⟨Bytes.uint32At_congr (Bytes.take_drop_overwrite_of_le _ (by omega) (by omega)),
    Bytes.uint16At_congr (Bytes.take_drop_overwrite_of_le _ (by omega) (by omega)),
    Bytes.uint16At_congr (Bytes.take_drop_overwrite_of_le _ (by omega) (by omega)),
    Bytes.uint32At_congr (Bytes.take_drop_overwrite_of_le _ (by omega) (by omega)),
    Bytes.uint32At_overwrite (by omega) portId⟩

end RouteControl.MessageHeader
