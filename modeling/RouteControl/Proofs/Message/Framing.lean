import RouteControl.Proofs.Message.Header

/-!
# Framing

A message whose header tells its own length is read back from its bytes, whatever comes behind it
(`front_bytes_append`), and so is a row of such messages (`read_flatMap_append`).  Every message
that is read from anything tells its own length (`wellFormed_of_mem_read`), so that what was read
can be laid out again and nothing is lost.
-/

namespace RouteControl.Message

def WellFormed (m : Message) : Prop :=
  m.header.length.toNat = MessageHeader.size + m.payload.length

theorem length_bytes (m : Message) :
    m.bytes.length = Bytes.align (MessageHeader.size + m.payload.length) := by
  rw [bytes, Bytes.length_padded, List.length_append, MessageHeader.length_bytes]

theorem WellFormed.length_bytes {m : Message} (h : m.WellFormed) :
    m.bytes.length = Bytes.align m.header.length.toNat := by
  rw [Message.length_bytes, h]

/-! ## One message -/

/-- A message is read from where its header and its payload lie; what lies behind them is skipped up
to the next grid line. -/
theorem front_header_append {m : Message} (h : m.WellFormed) (behind : Bytes) :
    front (m.header.bytes ++ (m.payload ++ behind)) =
      .message m (behind.drop
        (Bytes.align m.header.length.toNat - m.header.length.toNat)) := by
  have hlen : (m.header.bytes ++ m.payload).length = m.header.length.toNat := by
    rw [List.length_append, MessageHeader.length_bytes, h]
  have hle := Bytes.le_align m.header.length.toNat
  have hsize : MessageHeader.size ≤ m.header.length.toNat := by
    rw [h]
    omega
  have htake : (m.header.bytes ++ m.payload ++ behind).take m.header.length.toNat =
      m.header.bytes ++ m.payload :=
    List.take_left' hlen
  have hpayload : (m.header.bytes ++ m.payload).drop MessageHeader.size = m.payload :=
    List.drop_left' m.header.length_bytes
  have hrest : (m.header.bytes ++ m.payload ++ behind).drop (Bytes.align m.header.length.toNat) =
      behind.drop (Bytes.align m.header.length.toNat - m.header.length.toNat) := by
    rw [List.drop_append, List.drop_eq_nil_of_le (by omega), List.nil_append, hlen]
  rw [front, MessageHeader.readAt_zero_append, ← List.append_assoc,
    if_neg (by rw [List.length_append]; omega)]
  simp only
  rw [if_neg (by rw [List.length_append]; omega), htake, hpayload, hrest]

theorem front_bytes_append {m : Message} (h : m.WellFormed) (rest : Bytes) :
    front (m.bytes ++ rest) = .message m rest := by
  have hlen : (m.header.bytes ++ m.payload).length = m.header.length.toNat := by
    rw [List.length_append, MessageHeader.length_bytes, h]
  rw [bytes, Bytes.padded, hlen, List.append_assoc, List.append_assoc, front_header_append h,
    List.drop_left' (Bytes.length_zeros _)]

/-- Behind the last message there need not be any padding. -/
theorem front_unpadded {m : Message} (h : m.WellFormed) :
    front (m.header.bytes ++ m.payload) = .message m [] := by
  have hfront := front_header_append h []
  rwa [List.append_nil, List.drop_nil] at hfront

theorem wellFormed_of_front {bytes rest : Bytes} {m : Message}
    (h : front bytes = .message m rest) : m.WellFormed := by
  unfold front at h
  split at h
  · cases h
  · simp only at h
    split at h
    · cases h
    · rename_i hwell
      cases h
      simp only [WellFormed, List.length_drop, List.length_take]
      omega

/-- These bytes are one whole message, and end on the grid. -/
structure Framed (bytes : Bytes) (m : Message) : Prop where
  front_eq : front bytes = .message m []
  aligned : bytes.length = Bytes.align m.header.length.toNat

theorem framed_bytes {m : Message} (h : m.WellFormed) : Framed m.bytes m where
  front_eq := by simpa using front_bytes_append h []
  aligned := h.length_bytes

theorem Framed.front_append {bytes : Bytes} {m : Message} (h : Framed bytes m) (rest : Bytes) :
    front (bytes ++ rest) = .message m rest := by
  obtain ⟨hfront, haligned⟩ := h
  have hle := Bytes.le_align m.header.length.toNat
  unfold front at hfront
  split at hfront
  · cases hfront
  · rename_i hsize
    have hread : MessageHeader.readAt (bytes ++ rest) 0 = MessageHeader.readAt bytes 0 := by
      rw [← MessageHeader.readAt_take (bytes ++ rest) (Nat.le_of_not_lt hsize), List.take_left]
    simp only at hfront
    split at hfront
    · cases hfront
    · rename_i hwell
      simp only [Front.message.injEq] at hfront
      obtain ⟨rfl, -⟩ := hfront
      rw [front, hread, if_neg (by rw [List.length_append]; omega)]
      simp only at haligned hle ⊢
      rw [if_neg (by rw [List.length_append]; omega),
        List.take_append_of_le_length (by omega), List.drop_left' haligned]

/-! ## A row of messages -/

theorem read_of_finished {bytes : Bytes} (h : front bytes = .finished) :
    read bytes = ⟨[], none⟩ := by
  rw [read]
  split <;> simp_all

theorem read_of_faulty {bytes : Bytes} {length : UInt32} (h : front bytes = .faulty length) :
    read bytes = ⟨[], some length⟩ := by
  rw [read]
  split <;> simp_all

theorem read_of_message {bytes rest : Bytes} {m : Message} (h : front bytes = .message m rest) :
    read bytes = .cons m (read rest) := by
  rw [read]
  split <;> simp_all

@[simp] theorem read_nil : read [] = ⟨[], none⟩ :=
  read_of_finished rfl

theorem read_flatMap_append {messages : List Message} (h : ∀ m ∈ messages, m.WellFormed)
    (tail : Bytes) :
    read (messages.flatMap bytes ++ tail) =
      ⟨messages ++ (read tail).messages, (read tail).fault⟩ := by
  induction messages with
  | nil => rfl
  | cons m ms ih =>
      obtain ⟨hm, hms⟩ := List.forall_mem_cons.1 h
      rw [List.flatMap_cons, List.append_assoc, read_of_message (front_bytes_append hm _), ih hms]
      rfl

theorem read_flatMap {messages : List Message} (h : ∀ m ∈ messages, m.WellFormed) :
    read (messages.flatMap bytes) = ⟨messages, none⟩ := by
  simpa using read_flatMap_append h []

/-- A message that ends on the grid needs no padding. -/
theorem read_of_aligned {m : Message} (h : m.WellFormed) (haligned : m.payload.length % 4 = 0) :
    read (m.header.bytes ++ m.payload) = ⟨[m], none⟩ := by
  have hgrid : Bytes.align (m.header.bytes ++ m.payload).length =
      (m.header.bytes ++ m.payload).length := by
    apply Bytes.align_eq_self
    rw [List.length_append, MessageHeader.length_bytes, MessageHeader.size]
    omega
  have hbytes : m.bytes = m.header.bytes ++ m.payload := by
    rw [bytes, Bytes.padded, hgrid, Nat.sub_self]
    exact List.append_nil _
  have hread := read_flatMap (List.forall_mem_singleton.2 h)
  rwa [List.flatMap_singleton, hbytes] at hread

theorem wellFormed_of_mem_read {bytes : Bytes} {m : Message} (h : m ∈ (read bytes).messages) :
    m.WellFormed := by
  fun_induction read bytes with
  | case1 => cases h
  | case2 => cases h
  | case3 bytes first rest hfront ih =>
      rcases List.mem_cons.1 h with rfl | h
      · exact wellFormed_of_front hfront
      · exact ih h

end RouteControl.Message
