import RouteControl.Proofs.Draft.Message

/-!
# Contents of drafts

A draft that was begun and written to is told by the form it was begun with and its payload
(`Form.holding`).  An edit that writes puts blocks behind the payload: it succeeds just when they
fit, and where they do not it fails for want of room (`Writes`).  Edits that write are put together
by `Writes.bind`, and what is written between the opening and the closing of a nest is one block
(`writes_nest`).  So it takes one computation to tell when a whole request can be written and what
it holds (`edited_of_room`, `edited_of_full`).
-/

namespace RouteControl.Draft

open MessageHeader Bytes

/-- What a draft is begun with, and the size of its buffer. -/
structure Form where
  type : MessageType
  flags : MessageFlags
  capacity : Nat

variable {f : Form} {payload : Bytes}

namespace Form

def headerFor (f : Form) (payload : Bytes) : MessageHeader :=
  { ofType f.type f.flags with length := UInt32.ofNat (size + payload.length) }

def message (f : Form) (payload : Bytes) : Message := ⟨f.headerFor payload, payload⟩

def holding (f : Form) (payload : Bytes) : Draft where
  buffer := (f.headerFor payload).bytes ++
    (payload ++ zeros (f.capacity - (size + payload.length)))
  length := size + payload.length

def Fits (f : Form) (payload : Bytes) : Prop := size + payload.length ≤ f.capacity

instance (f : Form) (payload : Bytes) : Decidable (f.Fits payload) := by
  unfold Fits
  infer_instance

/-- A buffer has room for the header at least. -/
def ofCapacity (type : MessageType) (flags : MessageFlags) (capacity : Nat) : Form :=
  ⟨type, flags, max capacity size⟩

theorem Fits.of_length_le {first second : Bytes} (h : f.Fits second)
    (hle : first.length ≤ second.length) : f.Fits first :=
  Nat.le_trans (Nat.add_le_add_left hle size) h

private theorem fits_nil (type : MessageType) (flags : MessageFlags) (capacity : Nat) :
    (ofCapacity type flags capacity).Fits [] :=
  Nat.le_max_right _ _

/-- A buffer that has room for a payload, which is not empty, has the size of the request. -/
theorem fits_ofCapacity_iff {type : MessageType} {flags : MessageFlags} {capacity total : Nat}
    (htotal : size + payload.length = total) (hlarge : size < total) :
    (ofCapacity type flags capacity).Fits payload ↔ total ≤ capacity := by
  show size + payload.length ≤ max capacity size ↔ total ≤ capacity
  omega

end Form

open Form

private theorem holding_eq (f : Form) (payload : Bytes) :
    f.holding payload = ofMessage (f.message payload) f.capacity := rfl

theorem capacity_holding (h : f.Fits payload) : (f.holding payload).capacity = f.capacity :=
  capacity_ofMessage (m := f.message payload) h

theorem wellFormed_holding (h : f.Fits payload) : (f.holding payload).WellFormed where
  size_le := Nat.le_add_right _ _
  length_le := by
    rw [capacity_holding h]
    exact h

theorem bytes_holding : (f.holding payload).bytes = (f.headerFor payload).bytes ++ payload :=
  bytes_ofMessage (m := f.message payload)

theorem read_of_length_eq {header : MessageHeader}
    (hlength : header.length = UInt32.ofNat (size + payload.length))
    (haligned : payload.length % 4 = 0) (hsmall : size + payload.length < 2 ^ 32) :
    Message.read (header.bytes ++ payload) = ⟨[⟨header, payload⟩], none⟩ := by
  have hcount : (UInt32.ofNat (size + payload.length)).toNat = size + payload.length :=
    UInt32.toNat_ofNat_of_lt' hsmall
  have hwell : (Message.mk header payload).WellFormed := by
    rw [Message.WellFormed, hlength]
    exact hcount
  exact Message.read_of_aligned (m := ⟨header, payload⟩) hwell haligned

theorem read_bytes_holding (haligned : payload.length % 4 = 0)
    (hsmall : size + payload.length < 2 ^ 32) :
    Message.read (f.holding payload).bytes = ⟨[⟨f.headerFor payload, payload⟩], none⟩ := by
  rw [bytes_holding]
  exact read_of_length_eq rfl haligned hsmall

/-- What a draft whose payload ends on the grid is sent as, with its number and its sender. -/
theorem read_bytes_numbered (haligned : payload.length % 4 = 0)
    (hsmall : size + payload.length < 2 ^ 32) (seq portId : UInt32) :
    Message.read (((f.holding payload).withSeq seq).withPortId portId).bytes =
      ⟨[⟨{ f.headerFor payload with seq, portId }, payload⟩], none⟩ := by
  have hbytes : (((f.holding payload).withSeq seq).withPortId portId).bytes =
      { f.headerFor payload with seq, portId }.bytes ++ payload := by
    rw [holding, withSeq_eq, withPortId_eq, Draft.bytes, ← List.append_assoc]
    exact List.take_left' (by rw [List.length_append, length_bytes])
  rw [hbytes]
  exact read_of_length_eq rfl haligned hsmall

theorem new_eq_holding (type : MessageType) (flags : MessageFlags) (capacity : Nat) :
    new type flags capacity = (ofCapacity type flags capacity).holding [] :=
  new_eq_ofMessage type flags capacity

/-! ## Writing behind the payload -/

/-- An edit that puts these blocks behind the payload, each on the next grid line, where they fit
into the buffer, and that fails for want of room where they do not. -/
structure Writes (edit : Edit Unit) (blocks : List Bytes) : Prop where
  room : ∀ (f : Form) {payload : Bytes}, f.Fits (stack payload blocks) →
    edit (f.holding payload) = .ok () (f.holding (stack payload blocks))
  full : ∀ (f : Form) {payload : Bytes}, f.Fits payload → ¬f.Fits (stack payload blocks) →
    ∃ needed d, edit (f.holding payload) = .error (.bufferTooSmall needed f.capacity) d

/-- An edit that does so in buffers of one form. -/
structure WritesIn (f : Form) (edit : Edit Unit) (blocks : List Bytes) : Prop where
  room : ∀ {payload : Bytes}, f.Fits (stack payload blocks) →
    edit (f.holding payload) = .ok () (f.holding (stack payload blocks))
  full : ∀ {payload : Bytes}, f.Fits payload → ¬f.Fits (stack payload blocks) →
    ∃ needed d, edit (f.holding payload) = .error (.bufferTooSmall needed f.capacity) d

theorem writes_iff {edit : Edit Unit} {blocks : List Bytes} :
    Writes edit blocks ↔ ∀ f, WritesIn f edit blocks :=
  ⟨fun h f => ⟨h.room f, h.full f⟩, fun h => ⟨fun f => (h f).room, fun f => (h f).full⟩⟩

theorem writesIn_pure (f : Form) : WritesIn f (pure ()) [] where
  room _ := rfl
  full hroom hfull := absurd hroom hfull

theorem WritesIn.bind {first second : Edit Unit} {front back : List Bytes}
    (h : WritesIn f first front) (hnext : WritesIn f second back) :
    WritesIn f (first >>= fun _ => second) (front ++ back) where
  room := by
    intro payload hroom
    rw [stack_append_blocks] at hroom ⊢
    rw [bind_of_ok (h.room (hroom.of_length_le (length_le_stack _ back)))]
    exact hnext.room hroom
  full := by
    intro payload hroom hfull
    rw [stack_append_blocks] at hfull
    by_cases hfirst : f.Fits (stack payload front)
    · obtain ⟨needed, d, hrun⟩ := hnext.full hfirst hfull
      exact ⟨needed, d, (bind_of_ok (h.room hfirst)).trans hrun⟩
    · obtain ⟨needed, d, hrun⟩ := h.full hroom hfirst
      exact ⟨needed, d, bind_of_error _ hrun⟩

theorem writes_pure : Writes (pure ()) [] :=
  writes_iff.2 writesIn_pure

theorem Writes.bind {first second : Edit Unit} {front back : List Bytes} (h : Writes first front)
    (hnext : Writes second back) : Writes (first >>= fun _ => second) (front ++ back) :=
  writes_iff.2 fun f => (writes_iff.1 h f).bind (writes_iff.1 hnext f)

/-! ## Single edits -/

theorem stack_singleton (payload data : Bytes) :
    stack payload [data] = payload.padded ++ data :=
  rfl

theorem fits_of_fits_written {data : Bytes} (h : f.Fits (payload.padded ++ data)) :
    f.Fits payload := by
  refine h.of_length_le ?_
  have hle := le_align payload.length
  rw [List.length_append, length_padded]
  omega

theorem writes_append (data : Bytes) : Writes (Draft.append data) [data] where
  room := by
    intro f payload hroom
    rw [stack_singleton] at hroom ⊢
    have hwrite := append_ofMessage (m := f.message payload) (fits_of_fits_written hroom) data
    exact hwrite.trans (if_pos hroom)
  full := by
    intro f payload hroom hfull
    rw [stack_singleton] at hfull
    have hwrite := append_ofMessage (m := f.message payload) hroom data
    exact ⟨_, _, hwrite.trans (if_neg hfull)⟩

/-- An attribute that fits into the buffer is written if its length fits into its header too. -/
theorem writesIn_appendAttribute {a : Attribute}
    (ha : ∀ payload : Bytes, f.Fits (payload.padded ++ a.bytes) → a.Fits) :
    WritesIn f (Draft.appendAttribute a.type a.payload) [a.bytes] where
  room := by
    intro payload hroom
    rw [stack_singleton] at hroom ⊢
    have hwrite :=
      appendAttribute_ofMessage (m := f.message payload) (fits_of_fits_written hroom) a
    exact hwrite.trans (if_pos ⟨hroom, ha payload hroom⟩)
  full := by
    intro payload hroom hfull
    rw [stack_singleton] at hfull
    have hwrite := appendAttribute_ofMessage (m := f.message payload) hroom a
    exact ⟨_, _, hwrite.trans (if_neg (mt And.left hfull))⟩

theorem writes_appendAttribute {a : Attribute} (ha : a.Fits) :
    Writes (Draft.appendAttribute a.type a.payload) [a.bytes] :=
  writes_iff.2 fun _ => writesIn_appendAttribute fun _ _ => ha

/-- What fits into a buffer that is no longer than an attribute may be has a length that fits into
its header. -/
theorem writesIn_appendAttribute_of_small (hsmall : f.capacity ≤ Attribute.maxLength)
    (a : Attribute) : WritesIn f (Draft.appendAttribute a.type a.payload) [a.bytes] := by
  refine writesIn_appendAttribute fun payload hroom => ?_
  rw [Form.Fits, List.length_append, Attribute.length_bytes] at hroom
  unfold Attribute.Fits
  omega

theorem writes_appendWord (type : UInt16) (word : UInt32) :
    Writes (Draft.appendWord type word) [(Attribute.mk type (ofUInt32 word)).bytes] := by
  have hwidth : (ofUInt32 word).length ≤ Attribute.maxLength - AttributeHeader.size := by
    rw [length_ofUInt32]
    decide
  exact writes_appendAttribute (Attribute.fits_of_length_le hwidth)

/-! ## Nests -/

/-- Closing a nest makes the attribute that it opened count what was written since. -/
theorem closeNest_holding (front inner : Bytes) (kind : UInt16) :
    closeNest ⟨size + front.length⟩
        (f.holding (front ++ ((Attribute.mk kind []).bytes ++ inner))) =
      .ok () (f.holding (front ++ (Attribute.mk kind inner).bytes)) := by
  have hcount : (front ++ ((Attribute.mk kind []).bytes ++ inner)).length - front.length =
      AttributeHeader.size + inner.length := by
    simp only [List.length_append, Attribute.length_bytes, List.length_nil]
    omega
  have hroom : front.length + 2 ≤ (front ++ ((Attribute.mk kind []).bytes ++ inner)).length := by
    simp only [List.length_append, Attribute.length_bytes, AttributeHeader.size]
    omega
  have hwidth : (ofUInt16 (UInt16.ofNat AttributeHeader.size)).length =
      (ofUInt16 (UInt16.ofNat (AttributeHeader.size + inner.length))).length := by
    rw [length_ofUInt16, length_ofUInt16]
  have hwrite : overwrite (front ++ ((Attribute.mk kind []).bytes ++ inner)) front.length
      (ofUInt16 (UInt16.ofNat (AttributeHeader.size + inner.length))) =
      front ++ (Attribute.mk kind inner).bytes := by
    simp only [Attribute.bytes, Attribute.header, AttributeHeader.ofPayload, AttributeHeader.bytes,
      List.append_assoc, List.length_nil, Nat.add_zero, List.nil_append]
    exact overwrite_append front (ofUInt16 kind ++ inner) hwidth
  have hheader : f.headerFor (front ++ ((Attribute.mk kind []).bytes ++ inner)) =
      f.headerFor (front ++ (Attribute.mk kind inner).bytes) := by
    simp only [headerFor, List.length_append, Attribute.length_bytes, List.length_nil, Nat.add_zero]
  have hmessage : f.message (front ++ (Attribute.mk kind inner).bytes) =
      ⟨f.headerFor (front ++ ((Attribute.mk kind []).bytes ++ inner)),
        front ++ (Attribute.mk kind inner).bytes⟩ := by
    rw [Form.message, hheader]
  rw [holding_eq, holding_eq, hmessage, ← hwrite, ← hcount]
  exact closeNest_ofMessage hroom

private theorem length_opened_mod (payload : Bytes) (kind : UInt16) :
    (payload.padded ++ (opening kind).bytes).length % 4 = 0 := by
  have hmod := align_mod_four payload.length
  rw [List.length_append, length_padded, Attribute.length_bytes]
  simp only [AttributeHeader.size, opening, List.length_nil]
  omega

/-- The attribute that a nest comes to when these blocks were written into it. -/
def nested (kind : UInt16) (blocks : List Bytes) : Attribute :=
  ⟨kind ||| AttributeHeader.nestedFlag, stack [] blocks⟩

private theorem stack_opened (payload : Bytes) (kind : UInt16) (blocks : List Bytes) :
    stack (payload.padded ++ (opening kind).bytes) blocks =
      payload.padded ++ ((opening kind).bytes ++ stack [] blocks) := by
  have happend := stack_append (length_opened_mod payload kind) [] blocks
  rwa [List.append_nil, List.append_assoc] at happend

private theorem fits_nested_iff (kind : UInt16) (blocks : List Bytes) :
    f.Fits (stack payload [(nested kind blocks).bytes]) ↔
      f.Fits (stack (payload.padded ++ (opening kind).bytes) blocks) := by
  rw [stack_opened, stack_singleton]
  simp only [Fits, nested, opening, List.length_append, Attribute.length_bytes, List.length_nil,
    Nat.add_zero]

theorem openNest_holding (hroom : f.Fits payload) (kind : UInt16) :
    openNest kind (f.holding payload) =
      if f.Fits (payload.padded ++ (opening kind).bytes) then
        .ok ⟨size + payload.padded.length⟩ (f.holding (payload.padded ++ (opening kind).bytes))
      else
        .error (.bufferTooSmall (size + (payload.padded ++ (opening kind).bytes).length) f.capacity)
        (f.holding payload) :=
  openNest_ofMessage (m := f.message payload) hroom kind

theorem closeNest_opened (payload : Bytes) (kind : UInt16) (blocks : List Bytes) :
    closeNest ⟨size + payload.padded.length⟩
        (f.holding (stack (payload.padded ++ (opening kind).bytes) blocks)) =
      .ok () (f.holding (stack payload [(nested kind blocks).bytes])) := by
  rw [stack_opened]
  exact closeNest_holding _ _ _

theorem WritesIn.nest (kind : UInt16) {inner : Edit Unit} {blocks : List Bytes}
    (h : WritesIn f inner blocks) :
    WritesIn f (openNest kind >>= fun nest => inner >>= fun _ => closeNest nest)
      [(nested kind blocks).bytes] where
  room := by
    intro payload hroom
    rw [fits_nested_iff] at hroom
    have hopened := hroom.of_length_le (length_le_stack _ blocks)
    have hopen := openNest_holding (fits_of_fits_written hopened) kind
    rw [if_pos hopened] at hopen
    rw [bind_of_ok hopen, bind_of_ok (h.room hroom)]
    exact closeNest_opened payload kind blocks
  full := by
    intro payload hroom hfull
    rw [fits_nested_iff] at hfull
    have hopen := openNest_holding hroom kind
    by_cases hopened : f.Fits (payload.padded ++ (opening kind).bytes)
    · obtain ⟨needed, d, hinner⟩ := h.full hopened hfull
      rw [if_pos hopened] at hopen
      exact ⟨needed, d, (bind_of_ok hopen).trans (bind_of_error _ hinner)⟩
    · rw [if_neg hopened] at hopen
      exact ⟨_, _, bind_of_error _ hopen⟩

theorem writes_nest (kind : UInt16) {inner : Edit Unit} {blocks : List Bytes}
    (h : Writes inner blocks) :
    Writes (openNest kind >>= fun nest => inner >>= fun _ => closeNest nest)
      [(nested kind blocks).bytes] :=
  writes_iff.2 fun f => (writes_iff.1 h f).nest kind

/-! ## Whole requests -/

section

variable {type : MessageType} {flags : MessageFlags} {capacity : Nat} {edit : Edit Unit}
  {blocks : List Bytes}

theorem WritesIn.edited_of_room (h : WritesIn (ofCapacity type flags capacity) edit blocks)
    (hroom : (ofCapacity type flags capacity).Fits (stack [] blocks)) :
    (new type flags capacity).edited edit =
      .ok ((ofCapacity type flags capacity).holding (stack [] blocks)) := by
  rw [edited, new_eq_holding, EStateM.run, h.room hroom]

theorem WritesIn.edited_of_full (h : WritesIn (ofCapacity type flags capacity) edit blocks)
    (hfull : ¬(ofCapacity type flags capacity).Fits (stack [] blocks)) :
    ∃ needed, (new type flags capacity).edited edit =
      .error (.bufferTooSmall needed (max capacity size)) := by
  obtain ⟨needed, d, hrun⟩ := h.full (fits_nil type flags capacity) hfull
  exact ⟨needed, by rw [edited, new_eq_holding, EStateM.run, hrun]; rfl⟩

theorem edited_of_room (h : Writes edit blocks)
    (hroom : (ofCapacity type flags capacity).Fits (stack [] blocks)) :
    (new type flags capacity).edited edit =
      .ok ((ofCapacity type flags capacity).holding (stack [] blocks)) :=
  (writes_iff.1 h _).edited_of_room hroom

theorem edited_of_full (h : Writes edit blocks)
    (hfull : ¬(ofCapacity type flags capacity).Fits (stack [] blocks)) :
    ∃ needed, (new type flags capacity).edited edit =
      .error (.bufferTooSmall needed (max capacity size)) :=
  (writes_iff.1 h _).edited_of_full hfull

/-- A draft that was edited holds the blocks; an edit fails for want of room only. -/
theorem edited_cases (type : MessageType) (flags : MessageFlags) (capacity : Nat)
    (h : Writes edit blocks) :
    (new type flags capacity).edited edit =
        .ok ((ofCapacity type flags capacity).holding (stack [] blocks)) ∨
      ∃ needed capacity', (new type flags capacity).edited edit =
        .error (.bufferTooSmall needed capacity') := by
  by_cases hroom : (ofCapacity type flags capacity).Fits (stack [] blocks)
  · exact .inl (edited_of_room h hroom)
  · obtain ⟨needed, herror⟩ := edited_of_full h hroom
    exact .inr ⟨needed, _, herror⟩

theorem wellFormed_of_edited (h : Writes edit blocks) {d : Draft}
    (hedited : (new type flags capacity).edited edit = .ok d) : d.WellFormed := by
  by_cases hroom : (ofCapacity type flags capacity).Fits (stack [] blocks)
  · rw [edited_of_room h hroom] at hedited
    cases hedited
    exact wellFormed_holding hroom
  · obtain ⟨needed, herror⟩ := edited_of_full h hroom
    rw [herror] at hedited
    cases hedited

end

end RouteControl.Draft
