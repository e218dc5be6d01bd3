import RouteControl.Proofs.Attribute.Row
import RouteControl.Proofs.Kernel.Table
import RouteControl.Proofs.Record.Name

/-!
# Layout of scripted records

A scripted payload is laid out by growing a row of bytes, a request by writing into a buffer of
fixed size.  Both put attributes on the same grid, so that behind a header of any size a draft with
room for them holds the bytes of the scripted payload (`drop_bytes_appendRow`).  So scripted routes,
addresses and links are read as what they were made from (`scripted_payloads_read_back`).
-/

namespace RouteControl

open Bytes Attribute

/-! ## Rows in drafts -/

namespace Draft

open MessageHeader

variable {header : Bytes} {attributes : List Attribute}

/-- Adds a header, and attributes behind it one after the other. -/
def appendRow (header : Bytes) (attributes : List Attribute) : Edit Unit := do
  append header
  attributes.forM fun a => appendAttribute a.type a.payload

private theorem writes_forM_appendAttribute (h : ∀ a ∈ attributes, a.Fits) :
    Writes (attributes.forM fun a => appendAttribute a.type a.payload)
      (attributes.map Attribute.bytes) := by
  induction attributes with
  | nil => exact writes_pure
  | cons a rest ih =>
      obtain ⟨ha, hrest⟩ := List.forall_mem_cons.1 h
      exact (writes_appendAttribute ha).bind (ih hrest)

theorem writes_appendRow (header : Bytes) (h : ∀ a ∈ attributes, a.Fits) :
    Writes (appendRow header attributes) (header :: attributes.map Attribute.bytes) :=
  (writes_append header).bind (writes_forM_appendAttribute h)

private theorem stack_row (header : Bytes) (attributes : List Attribute) :
    stack [] (header :: attributes.map Attribute.bytes) = Script.layOut header attributes := by
  rw [Script.layOut_eq_stack, stack_cons, padded_of_aligned rfl, List.nil_append]

private theorem fits_row_iff {type : MessageType} {flags : MessageFlags} {capacity : Nat} :
    (Form.ofCapacity type flags capacity).Fits
        (stack [] (header :: attributes.map Attribute.bytes)) ↔
      size + (Script.layOut header attributes).length ≤ max capacity size := by
  rw [stack_row]
  rfl

section

variable (h : ∀ a ∈ attributes, a.Fits) {type : MessageType} {flags : MessageFlags}
  {capacity : Nat}
include h

theorem edited_appendRow_of_room
    (hroom : size + (Script.layOut header attributes).length ≤ max capacity size) :
    (new type flags capacity).edited (appendRow header attributes) =
      .ok ((Form.ofCapacity type flags capacity).holding (Script.layOut header attributes)) := by
  have hfits : (Form.ofCapacity type flags capacity).Fits
      (stack [] (header :: attributes.map Attribute.bytes)) := fits_row_iff.2 hroom
  have hedited := edited_of_room (writes_appendRow header h) hfits
  rwa [stack_row] at hedited

/-- A row is written just where the buffer has room for the scripted payload. -/
theorem edited_appendRow_iff :
    (∃ d, (new type flags capacity).edited (appendRow header attributes) = .ok d) ↔
      size + (Script.layOut header attributes).length ≤ max capacity size := by
  constructor
  · intro hedited
    by_contra hfull
    obtain ⟨needed, herror⟩ := edited_of_full (writes_appendRow header h) (mt fits_row_iff.1 hfull)
    obtain ⟨d, hd⟩ := hedited
    rw [herror] at hd
    cases hd
  · intro hroom
    exact ⟨_, edited_appendRow_of_room h hroom⟩

theorem drop_bytes_appendRow {d : Draft}
    (hd : (new type flags capacity).edited (appendRow header attributes) = .ok d) :
    d.bytes.drop size = Script.layOut header attributes := by
  have hroom := (edited_appendRow_iff h).1 ⟨d, hd⟩
  rw [edited_appendRow_of_room h hroom] at hd
  cases hd
  rw [bytes_holding]
  exact List.drop_left' (MessageHeader.length_bytes _)

end

end Draft

/-! ## Records -/

namespace Script

private theorem layOut_of_aligned {header : Bytes} (h : header.length % 4 = 0)
    (attributes : List Attribute) :
    layOut header attributes = header ++ stack [] (attributes.map bytes) := by
  have happend := stack_append h [] (attributes.map bytes)
  rwa [List.append_nil, ← layOut_eq_stack] at happend

namespace Record

/-- Under any number, the record is laid out as one message of its type, and from the payload of
this message the value is decoded. -/
def Tells {α : Type} (r : Record) (decode? : Bytes → Option α) (value : α) : Prop :=
  ∀ seq, ∃ m, Message.read (r.encode seq) = ⟨[m], none⟩ ∧ m.header.type = r.type ∧
    decode? m.payload = some value

theorem tells_of_decode? {α : Type} {r : Record} {decode? : Bytes → Option α} {value : α}
    (hfits : r.Fits) (h : decode? r.payload = some value) : r.Tells decode? value := by
  intro seq
  have hall : ∀ s ∈ [r], s.Fits := fun s hs => List.mem_singleton.1 hs ▸ hfits
  have hread := read_encode_append hall seq []
  simp only [List.flatMap_singleton, List.append_nil, Message.read_nil] at hread
  exact ⟨r.message seq, hread, rfl, h⟩

/-! ### Addresses -/

/-- The attributes of a scripted address: the host's own and, the same, that of the network. -/
def addressAttributes (a : Address) : List Attribute :=
  ofAddress AddressAttribute.hostAddress (some a) ++ ofAddress AddressAttribute.address (some a)

private theorem regular_addressAttributes (a : Address) : ∀ b ∈ addressAttributes a, b.Regular :=
  List.forall_mem_append.2 ⟨regular_ofAddress _ _, regular_ofAddress _ _⟩

section

variable (type : MessageType) (index : UInt32) (a : Address) (length : UInt8)

theorem payload_address :
    (address type index a length).payload =
      AddressHeader.bytes { family := a.family, prefixLength := length, index } ++
        stack [] ((addressAttributes a).map bytes) :=
  layOut_of_aligned (by simp [AddressHeader.size]) _

theorem fits_address : (address type index a length).Fits := by
  have hsum := sum_le_of_regular (regular_addressAttributes a)
  have hcount : (addressAttributes a).length = 2 := rfl
  unfold Fits
  rw [payload_address, List.length_append, AddressHeader.length_bytes,
    length_stack_of_regular (regular_addressAttributes a)]
  simp only [MessageHeader.size, AddressHeader.size, UInt32.size]
  omega

theorem decode?_address :
    InterfaceAddress.decode? (address type index a length).payload = some {
      index
      family := a.family
      prefixLength := length
      hostAddress := some a
      address := some a } := by
  have hfits : ∀ b ∈ addressAttributes a, b.Fits := fun b hb =>
    (regular_addressAttributes a b hb).fits
  rw [payload_address, InterfaceAddress.decode?_append, walk_stack hfits]
  simp +decide [InterfaceAddress.ofAttributes, addressAttributes, ofAddress, lastValue?, value?,
    kind_mk, a.ofOctetsIn?_octets]

end

/-! ### Links -/

section

variable (type : MessageType) (index : UInt32) {name : String} (flags : UInt32)

theorem payload_link (name : String) :
    (link type index name flags).payload =
      LinkHeader.bytes { index := index.toInt32, flags } ++
        stack [] ([⟨LinkAttribute.name, ofTerminatedText name⟩].map bytes) :=
  layOut_of_aligned (by simp [LinkHeader.size]) _

private theorem length_payload_link (name : String) :
    (link type index name flags).payload.length =
      LinkHeader.size + AttributeHeader.size + (ofText name).length + 1 := by
  rw [payload_link, List.map_singleton, Draft.stack_singleton, padded_of_aligned rfl,
    List.nil_append, List.length_append, LinkHeader.length_bytes, length_bytes, ofTerminatedText,
    List.length_append, List.length_singleton]
  omega

theorem fits_link (hshort : (ofText name).length ≤ 65530) : (link type index name flags).Fits := by
  unfold Fits
  rw [length_payload_link]
  simp only [MessageHeader.size, LinkHeader.size, AttributeHeader.size, UInt32.size]
  omega

theorem decode?_link (hzero : Char.ofNat 0 ∉ name.toList) (hshort : (ofText name).length ≤ 65530) :
    Link.decode? (link type index name flags).payload =
      some { index, name := some name, flags } := by
  have hfits : ∀ a ∈ [Attribute.mk LinkAttribute.name (ofTerminatedText name)], a.Fits := by
    intro a ha
    rw [List.mem_singleton.1 ha]
    apply fits_of_length_le
    rw [ofTerminatedText, List.length_append]
    show (ofText name).length + 1 ≤ 65535 - 4
    omega
  rw [payload_link, Link.decode?_bytes_append, walk_stack hfits]
  simp +decide [Link.ofAttributes, Link.ofHeader, lastOf?, kind_mk, text?_ofTerminatedText hzero]

end

end Record

/-- A draft with room for a row of attributes behind a header holds, behind its own header, the
bytes of the scripted payload, and it is written just where there is this room.  A scripted route,
address or link is read as one message, and as the record that it was made from. -/
theorem scripted_payloads_read_back :
    (∀ (type : MessageType) (flags : MessageFlags) (capacity : Nat) (header : Bytes)
      (attributes : List Attribute), (∀ a ∈ attributes, a.payload.length ≤ 65531) →
      ((∃ d, (Draft.new type flags capacity).edited (Draft.appendRow header attributes) = .ok d) ↔
        16 + (layOut header attributes).length ≤ max capacity 16) ∧
      ∀ d, (Draft.new type flags capacity).edited (Draft.appendRow header attributes) = .ok d →
        d.bytes.drop 16 = layOut header attributes) ∧
    (∀ (destination : Address) (length : UInt8) (source gateway : Option Address),
      (∀ a ∈ source, a.family = destination.family) →
      (∀ a ∈ gateway, a.family = destination.family) →
      (Record.route destination length source gateway).Tells Route.decode? {
        family := destination.family
        destination
        prefixLength := length
        gateway
        preferredSource := source
        outputInterface := none
        table := Table.main
        priority := 0
        type := RouteType.unicast.toByte
        protocol := RouteProtocol.unspecified.toByte
        scope := (if gateway.isSome then RouteScope.universe else RouteScope.link).toByte }) ∧
    (∀ (type : MessageType) (index : UInt32) (address : Address) (length : UInt8),
      (Record.address type index address length).Tells InterfaceAddress.decode? {
        index
        family := address.family
        prefixLength := length
        hostAddress := some address
        address := some address }) ∧
    ∀ (type : MessageType) (index : UInt32) (name : String) (flags : UInt32),
      Char.ofNat 0 ∉ name.toList → (ofText name).length ≤ 65530 →
      (Record.link type index name flags).Tells Link.decode?
        { index, name := some name, flags } := by
  refine ⟨?_, ?_, ?_, ?_⟩
  · intro type flags capacity header attributes hlength
    have hfits : ∀ a ∈ attributes, a.Fits := fun a ha => fits_of_length_le (hlength a ha)
    exact ⟨Draft.edited_appendRow_iff hfits, fun d hd => Draft.drop_bytes_appendRow hfits hd⟩
  · intro destination length source gateway hsource hgateway
    apply Record.tells_of_decode? (Record.isListed_route _ _ _ _).fits
    exact Record.decode?_route (fun a ha => (hsource a ha).symm) (fun a ha => (hgateway a ha).symm)
  · intro type index address length
    exact Record.tells_of_decode? (Record.fits_address _ _ _ _) (Record.decode?_address _ _ _ _)
  · intro type index name flags hzero hshort
    exact Record.tells_of_decode? (Record.fits_link _ _ _ hshort)
      (Record.decode?_link _ _ _ hzero hshort)

/-- A row whose attributes end on and off the grid, in a buffer of just its size, a route by way of
a neighbour, an address of version 6, and a link. -/
theorem scripted_payloads_read_back_neighbours :
    (∀ a ∈ unevenRow, a.payload.length ≤ 65531) ∧
    (∃ d, (Draft.new .newRoute .request 54).edited (Draft.appendRow (zeros 12) unevenRow) = .ok d ∧
      d.bytes.drop 16 = layOut (zeros 12) unevenRow) ∧
    (∀ a ∈ some (Address.v4 0x0a000009), a.family = (Address.v4 0x0a010000).family) ∧
    (∀ a ∈ some (Address.v4 0x0a000001), a.family = (Address.v4 0x0a010000).family) ∧
    (Record.route (.v4 0x0a010000) 16 (some (.v4 0x0a000009)) (some (.v4 0x0a000001))).Tells
      Route.decode?
      ⟨.inet, .v4 0x0a010000, 16, some (.v4 0x0a000001), some (.v4 0x0a000009), none, 254, 0, 1, 0,
        0⟩ ∧
    (Record.address .newAddress 7 (.v6 1) 128).Tells InterfaceAddress.decode?
      ⟨7, .inet6, 128, some (.v6 1), some (.v6 1)⟩ ∧
    Char.ofNat 0 ∉ "eth0".toList ∧ (ofText "eth0").length ≤ 65530 ∧
    (Record.link .newLink 7 "eth0" 0x41).Tells Link.decode? ⟨7, some "eth0", 0x41⟩ := by
  have hlength : ∀ a ∈ unevenRow, a.payload.length ≤ 65531 := by decide
  have hsource : ∀ a ∈ some (Address.v4 0x0a000009), a.family = (Address.v4 0x0a010000).family := by
    simp [Address.family]
  have hgateway : ∀ a ∈ some (Address.v4 0x0a000001),
      a.family = (Address.v4 0x0a010000).family := by
    simp [Address.family]
  have hzero : Char.ofNat 0 ∉ "eth0".toList := by decide
  have hshort : (ofText "eth0").length ≤ 65530 := by decide
  obtain ⟨hrow, hroute, haddress, hlink⟩ := scripted_payloads_read_back
  obtain ⟨hwritten, hbytes⟩ := hrow .newRoute .request 54 (zeros 12) unevenRow hlength
  obtain ⟨d, hd⟩ := hwritten.2 (by decide)
  exact ⟨hlength, ⟨d, hd, hbytes d hd⟩, hsource, hgateway, hroute _ _ _ _ hsource hgateway,
    haddress _ _ _ _, hzero, hshort, hlink _ _ _ _ hzero hshort⟩

end Script

end RouteControl
