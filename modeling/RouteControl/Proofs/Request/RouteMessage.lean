import RouteControl.Proofs.Request.SourceRoute

/-!
# Route messages as they are sent

What a draft of the route family is sent as is read as one message with the header and the
attributes that it was written from (`readsAs_sent`).  The message about a source route that is fit
to be asked for has a length that its family allows, and addresses of this family only
(`admits_of_validate`).
-/

namespace RouteControl

open Bytes Draft Attribute

/-- Some bytes are one message, with this header of the route family and these attributes. -/
def ReadsAs (message : Bytes) (type : MessageType) (flags : MessageFlags) (header : RouteHeader)
    (attributes : List Attribute) : Prop :=
  ∃ m, Message.read message = ⟨[m], none⟩ ∧ m.header.type = type ∧ m.header.flags = flags ∧
    RouteHeader.decode m.payload = .ok header ∧
    Attribute.walk (m.payload.drop RouteHeader.size) = attributes

variable {attributes : List Attribute}

/-- The draft of a message with a few attributes, sent under any number by any sender. -/
theorem readsAs_sent {f : Form} {header : RouteHeader} (hregular : ∀ a ∈ attributes, a.Regular)
    (hfew : attributes.length ≤ 6) (seq portId : UInt32) :
    ReadsAs (((f.holding (header.payload attributes)).withSeq seq).withPortId portId).bytes
      f.type f.flags header attributes := by
  have hlength := RouteHeader.length_payload_le hregular header
  have hsmall : MessageHeader.size + (header.payload attributes).length < 2 ^ 32 := by
    simp only [MessageHeader.size, RouteHeader.size] at hlength ⊢
    omega
  have hread := read_bytes_numbered (f := f)
    (RouteHeader.length_payload_mod_four hregular header) hsmall seq portId
  refine ⟨_, hread, rfl, rfl, ?_, RouteHeader.walk_payload hregular header⟩
  rw [RouteHeader.payload_eq, RouteHeader.decode_append]

/-- An edit that writes such a message comes to a draft of it, or fails for want of room. -/
theorem edited_readsAs {edit : Edit Unit} {header : RouteHeader}
    (h : Writes edit (header.bytes :: attributes.map Attribute.bytes))
    (hregular : ∀ a ∈ attributes, a.Regular) (hfew : attributes.length ≤ 6) (type : MessageType)
    (flags : MessageFlags) (capacity : Nat) :
    (∃ needed capacity', (new type flags capacity).edited edit =
      .error (.bufferTooSmall needed capacity')) ∨
    ∃ d : Draft, (new type flags capacity).edited edit = .ok d ∧ d.WellFormed ∧
      ∀ seq portId, ReadsAs ((d.withSeq seq).withPortId portId).bytes type flags header
        attributes := by
  rcases edited_cases type flags capacity h with hok | herror
  · exact .inr ⟨_, hok, wellFormed_of_edited h hok, readsAs_sent hregular hfew⟩
  · exact .inl herror

/-! ## Source routes -/

theorem Address.family_width (a : Address) :
    (a.family = .inet ∧ a.width = 32) ∨ (a.family = .inet6 ∧ a.width = 128) := by
  cases a with
  | v4 => exact .inl ⟨rfl, rfl⟩
  | v6 => exact .inr ⟨rfl, rfl⟩

/-- The attributes of a route message that hold addresses. -/
def RouteAttribute.addresses : List RouteAttribute := [destination, gateway, preferredSource]

/-- The length in the header is one that its family allows, and all addresses among the attributes
are of this family. -/
structure RouteHeader.Admits (header : RouteHeader) (attributes : List Attribute) : Prop where
  length_pos : 1 ≤ header.destinationLength
  length_le : (header.family = .inet ∧ header.destinationLength ≤ 32) ∨
    (header.family = .inet6 ∧ header.destinationLength ≤ 128)
  addresses : ∀ a ∈ attributes, a.kind ∈ RouteAttribute.addresses →
    ∃ address : Address, address.family = header.family ∧ a.payload = address.octets

namespace SourceRoute

def Faulty (r : SourceRoute) : Prop :=
  r.destination.length = 0 ∨ r.destination.address.width < r.destination.length ∨
    r.source.family ≠ r.destination.address.family ∨
      ∃ gateway ∈ r.gateway, gateway.family ≠ r.destination.address.family

variable {r : SourceRoute}

theorem validate_of_faulty (h : r.Faulty) :
    ∃ reason, r.validate = .error
      (if r.destination.length = 0 then .notSupported reason else .invalidMessage reason) := by
  unfold validate
  by_cases hzero : r.destination.length = 0
  · simp only [hzero, if_true]
    exact ⟨_, rfl⟩
  simp only [hzero, if_false]
  by_cases hlong : r.destination.address.width < r.destination.length
  · simp only [hlong, if_true]
    exact ⟨_, rfl⟩
  simp only [hlong, if_false]
  have hother : ∃ a ∈ r.otherAddresses, a.family ≠ r.destination.address.family := by
    rcases h with h | h | h | ⟨gateway, hgateway, h⟩
    · exact absurd h hzero
    · exact absurd h hlong
    · exact ⟨r.source, by simp [otherAddresses], h⟩
    · exact ⟨gateway, by simp [otherAddresses, Option.mem_def.1 hgateway], h⟩
  cases hfind : r.otherAddresses.find? fun a => a.family ≠ r.destination.address.family with
  | some a => exact ⟨_, rfl⟩
  | none =>
      obtain ⟨a, ha, hfamily⟩ := hother
      exact absurd hfamily (by simpa using List.find?_eq_none.1 hfind a ha)

theorem not_faulty_of_validate (h : r.validate = .ok ()) : ¬r.Faulty := by
  intro hfaulty
  obtain ⟨reason, hreason⟩ := validate_of_faulty hfaulty
  rw [hreason] at h
  cases h

theorem length_attributes_le (r : SourceRoute) (outputInterface : Option UInt32)
    (withMetrics : Bool) : (r.attributes outputInterface withMetrics).length ≤ 6 := by
  have hnest : r.metrics.nest.length ≤ 1 := by
    rw [RouteMetrics.nest]
    split <;> simp
  have hmetrics : (if withMetrics then r.metrics.nest else []).length ≤ 1 := by
    split
    · exact hnest
    · exact Nat.zero_le _
  have hdestination := length_ofAddress_le RouteAttribute.destination (some r.destination.address)
  have hsource := length_ofAddress_le RouteAttribute.preferredSource (some r.source)
  have hgateway := length_ofAddress_le RouteAttribute.gateway r.gateway
  have hinterface := length_ofWord_le RouteAttribute.outputInterface outputInterface
  have htable := length_ofWord_le RouteAttribute.table (Table.large? r.table)
  simp only [attributes, plainAttributes, List.length_append]
  omega

theorem kind_of_mem_nest {m : RouteMetrics} {withMetrics : Bool} {a : Attribute}
    (h : a ∈ if withMetrics then m.nest else []) : a.kind = RouteAttribute.metrics := by
  rw [List.mem_ite_nil_right, RouteMetrics.nest, List.mem_ite_nil_right, List.mem_singleton] at h
  obtain ⟨-, -, rfl⟩ := h
  exact kind_nest _

/-- The addresses in the attributes of a route are those that it names. -/
theorem mem_addresses {outputInterface : Option UInt32} {withMetrics : Bool} {a : Attribute}
    (ha : a ∈ r.attributes outputInterface withMetrics)
    (hkind : a.kind ∈ RouteAttribute.addresses) :
    ∃ address ∈ r.destination.address :: r.otherAddresses, a.payload = address.octets := by
  simp only [attributes, plainAttributes, List.mem_append, ofAddress, ofWord, List.mem_map] at ha
  rcases ha with (⟨address, haddress, rfl⟩ | ⟨address, haddress, rfl⟩ | ⟨address, haddress, rfl⟩ |
    ⟨word, -, rfl⟩ | ⟨word, -, rfl⟩) | hmetrics
  · exact ⟨address, by simp_all, rfl⟩
  · exact ⟨address, by simp_all [otherAddresses], rfl⟩
  · exact ⟨address, by simp_all [otherAddresses], rfl⟩
  · exact absurd hkind (by rw [kind_mk]; decide)
  · exact absurd hkind (by rw [kind_mk]; decide)
  · refine absurd hkind ?_
    rw [kind_of_mem_nest hmetrics]
    decide

theorem admits_of_validate (h : r.validate = .ok ()) (outputInterface : Option UInt32)
    (withMetrics : Bool) : r.header.Admits (r.attributes outputInterface withMetrics) := by
  have hsound := not_faulty_of_validate h
  simp only [Faulty, not_or] at hsound
  obtain ⟨hzero, hlong, -, -⟩ := hsound
  have hlength := Nat.le_of_not_lt hlong
  constructor
  case length_pos =>
      have hpos : r.destination.length.toNat ≠ 0 := fun hlen => hzero (UInt8.toNat_inj.1 hlen)
      exact UInt8.le_iff_toNat_le.2 (Nat.one_le_iff_ne_zero.2 hpos)
  case length_le =>
      rcases r.destination.address.family_width with ⟨hfamily, hwidth⟩ | ⟨hfamily, hwidth⟩
      · exact .inl ⟨hfamily, hwidth ▸ hlength⟩
      · exact .inr ⟨hfamily, hwidth ▸ hlength⟩
  case addresses =>
      intro a ha hkind
      obtain ⟨address, haddress, hpayload⟩ := mem_addresses ha hkind
      have hfamily : ∀ other ∈ r.destination.address :: r.otherAddresses,
          other.family = r.destination.address.family :=
        List.forall_mem_cons.2 ⟨rfl, family_of_validate h⟩
      exact ⟨address, hfamily address haddress, hpayload⟩

end SourceRoute

end RouteControl
