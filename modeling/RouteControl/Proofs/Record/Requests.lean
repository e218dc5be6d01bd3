import RouteControl.Proofs.Connection.Deletion
import RouteControl.Proofs.Record.Fields

/-!
# Requests as records

An address, a rule and a question for routes are each written as one message, where the buffer is as
large as their parts (`Draft.reads_back`).  What is read from its payload is what was written: the
record of the address and of the question, and the header and the attributes of the rule
(`requests_read_back`).
-/

namespace RouteControl

open Bytes Attribute Draft

/-! ## Messages in drafts -/

namespace Draft

/-- The draft is one message of this type and with these flags, and the header of the message tells
how many bytes it has. -/
structure IsMessage (d : Draft) (type : MessageType) (flags : MessageFlags) (m : Message) :
    Prop where
  read_eq : Message.read d.bytes = ⟨[m], none⟩
  length_eq : m.header.length.toNat = d.bytes.length
  type_eq : m.header.type = type
  flags_eq : m.header.flags = flags

variable {f : Form} {payload : Bytes} {edit : Edit Unit} {blocks : List Bytes}

theorem isMessage_holding (haligned : payload.length % 4 = 0)
    (hsmall : MessageHeader.size + payload.length < 2 ^ 32) :
    (f.holding payload).IsMessage f.type f.flags (f.message payload) where
  read_eq := read_bytes_holding haligned hsmall
  length_eq := by
    rw [bytes_holding, List.length_append, MessageHeader.length_bytes]
    exact UInt32.toNat_ofNat_of_lt' hsmall
  type_eq := rfl
  flags_eq := rfl

/-- A few blocks that end on the grid are written just where the buffer is as large as they are, and
then they are the payload of the message. -/
theorem reads_back (h : Writes edit blocks) {total : Nat}
    (htotal : MessageHeader.size + (stack [] blocks).length = total)
    (hlarge : MessageHeader.size < total) (haligned : (stack [] blocks).length % 4 = 0)
    (hsmall : total < 2 ^ 32) (type : MessageType) (flags : MessageFlags) (capacity : Nat) :
    ((∃ d, (new type flags capacity).edited edit = .ok d) ↔ total ≤ capacity) ∧
    ∀ d, (new type flags capacity).edited edit = .ok d →
      ∃ m, d.IsMessage type flags m ∧ m.payload = stack [] blocks := by
  have hfits : (Form.ofCapacity type flags capacity).Fits (stack [] blocks) ↔ total ≤ capacity :=
    Form.fits_ofCapacity_iff htotal hlarge
  by_cases hroom : total ≤ capacity
  · have hedited := edited_of_room h (hfits.2 hroom)
    refine ⟨⟨fun _ => hroom, fun _ => ⟨_, hedited⟩⟩, fun d hd => ?_⟩
    rw [hedited] at hd
    cases hd
    exact ⟨_, isMessage_holding haligned (by omega), rfl⟩
  · obtain ⟨needed, hedited⟩ := edited_of_full h (mt hfits.1 hroom)
    rw [hedited]
    exact ⟨⟨nofun, fun hle => absurd hle hroom⟩, nofun⟩

end Draft

/-! ## Addresses -/

namespace HostAddress

theorem payload_eq (a : HostAddress) :
    a.payload = a.header.bytes ++
      (Attribute.mk AddressAttribute.hostAddress a.address.address.octets).bytes := by
  rw [payload, stack_of_front_aligned (by simp [AddressHeader.size]), stack_cons,
    padded_of_aligned rfl]
  simp

theorem length_payload_mod_four (a : HostAddress) : a.payload.length % 4 = 0 := by
  have hwords := (regular_octets AddressAttribute.hostAddress a.address.address).1
  rw [payload_eq, List.length_append, AddressHeader.length_bytes, Attribute.length_bytes]
  simp only [AddressHeader.size, AttributeHeader.size] at hwords ⊢
  omega

theorem requestSize_lt (a : HostAddress) : a.requestSize < 2 ^ 32 := by
  simp only [requestSize, SourceRoute.addressSize, MessageHeader.size, AddressHeader.size,
    AttributeHeader.size]
  split <;> omega

theorem decode?_payload (a : HostAddress) :
    InterfaceAddress.decode? a.payload = some {
      index := a.index
      family := a.address.address.family
      prefixLength := a.address.length
      hostAddress := some a.address.address
      address := none } := by
  have hfits := (regular_octets AddressAttribute.hostAddress a.address.address).fits
  have hvalue := a.address.address.ofOctetsIn?_octets
  rw [payload_eq, InterfaceAddress.decode?_append, walk_of_some (next?_bytes hfits), walk_nil]
  simp +decide [InterfaceAddress.ofAttributes, lastValue?, value?, kind_mk, header, hvalue]

end HostAddress

/-! ## Rules -/

theorem RuleHeader.decode_append (h : RuleHeader) (rest : Bytes) :
    decode (h.bytes ++ rest) = .ok h := by
  have hsize : ¬(h.bytes ++ rest).length < size := by
    rw [List.length_append, length_bytes]
    omega
  have hflags : (h.bytes ++ rest).uint32At 8 = h.flags := by
    rw [bytes, List.append_assoc]
    exact uint32At_append [h.family, h.destinationLength, h.sourceLength, h.tos, h.table,
      h.reserved1, h.reserved2, h.action] h.flags rest
  rw [decode, if_neg hsize, hflags]
  rfl

namespace Rule

theorem regular_attributes (rule : Rule) : ∀ a ∈ rule.attributes, a.Regular :=
  List.forall_mem_append.2 ⟨regular_ofWord _ _, regular_ofWord _ _⟩

theorem payload_eq (rule : Rule) :
    rule.payload = rule.header.bytes ++ stack [] (rule.attributes.map Attribute.bytes) :=
  stack_of_front_aligned (by simp [RuleHeader.size]) _

private theorem length_payload_mod_four (rule : Rule) : rule.payload.length % 4 = 0 := by
  have hsum := sum_mod_four_of_regular rule.regular_attributes
  rw [payload_eq, List.length_append, RuleHeader.length_bytes,
    length_stack_of_regular rule.regular_attributes, RuleHeader.size]
  omega

private theorem requestSize_lt (rule : Rule) : rule.requestSize < 2 ^ 32 := by
  simp only [requestSize, MessageHeader.size, RuleHeader.size]
  split <;> omega

theorem decode_payload (rule : Rule) : RuleHeader.decode rule.payload = .ok rule.header := by
  rw [payload_eq, RuleHeader.decode_append]

theorem walk_payload (rule : Rule) :
    walk (rule.payload.drop RuleHeader.size) = rule.attributes := by
  rw [payload_eq, List.drop_left' rule.header.length_bytes]
  exact walk_stack fun a ha => (rule.regular_attributes a ha).fits

private theorem lastValue?_ofWord (kind : UInt16) (word : Option UInt32)
    (hkind : kind &&& AttributeHeader.kindMask = kind) :
    lastValue? kind uint32? (ofWord kind word) = word := by
  cases word with
  | none => rfl
  | some word => simp [ofWord, lastValue?, value?, kind_mk, hkind, uint32?_ofUInt32]

theorem priority_attributes (rule : Rule) :
    lastValue? RuleAttribute.priority uint32? rule.attributes = some rule.priority := by
  have hother : lastValue? RuleAttribute.priority uint32?
      (ofWord RuleAttribute.table (Table.large? rule.table)) = none := by
    cases Table.large? rule.table <;> simp +decide [ofWord, lastValue?, value?, kind_mk]
  rw [attributes, lastValue?_append, hother, Option.none_or, lastValue?_ofWord _ _ (by decide)]

theorem table_attributes (rule : Rule) :
    lastValue? RuleAttribute.table uint32? rule.attributes = Table.large? rule.table := by
  have hother : lastValue? RuleAttribute.table uint32?
      (ofWord RuleAttribute.priority (some rule.priority)) = none := by
    simp +decide [ofWord, lastValue?, value?, kind_mk]
  rw [attributes, lastValue?_append, hother, Option.or_none, lastValue?_ofWord _ _ (by decide)]

theorem kinds_attributes (rule : Rule) :
    rule.attributes.map Attribute.kind =
      if 255 < rule.table then [RuleAttribute.priority, RuleAttribute.table]
      else [RuleAttribute.priority] := by
  have hpriority : RuleAttribute.priority &&& AttributeHeader.kindMask =
      RuleAttribute.priority := by decide
  have htable : RuleAttribute.table &&& AttributeHeader.kindMask = RuleAttribute.table := by decide
  simp only [attributes, Table.large?, Table.needsAttribute, decide_eq_true_eq]
  split <;> simp [ofWord, kind_mk, hpriority, htable]

end Rule

/-! ## Questions for routes -/

namespace RouteQuery

def requestSize (q : RouteQuery) : Nat :=
  MessageHeader.size + RouteHeader.size +
    (if q.isHost then SourceRoute.addressSize q.destination.address else 0) +
      (q.wanted.map SourceRoute.addressSize).getD 0

private theorem length_payload (q : RouteQuery) :
    MessageHeader.size + (q.header.payload q.attributes).length = q.requestSize := by
  rw [RouteHeader.length_payload q.regular_attributes, attributes, List.map_append,
    List.sum_append, SourceRoute.sum_ofAddress, SourceRoute.sum_ofAddress, requestSize]
  split <;> simp [Nat.add_assoc]

private theorem size_lt_requestSize (q : RouteQuery) : MessageHeader.size < q.requestSize := by
  simp only [requestSize, RouteHeader.size]
  omega

private theorem requestSize_lt (q : RouteQuery) : q.requestSize < 2 ^ 32 := by
  have hlength := RouteHeader.length_payload_le q.regular_attributes q.header
  have hfew := q.length_attributes_le
  rw [← length_payload, MessageHeader.size]
  simp only [RouteHeader.size] at hlength
  omega

theorem decode?_payload {q : RouteQuery}
    (hwanted : ∀ w ∈ q.wanted, w.family = q.destination.address.family) :
    Route.decode? (q.header.payload q.attributes) = some {
      family := q.destination.address.family
      destination :=
        if q.destination.length = q.destination.address.width then q.destination.address
        else .unspecifiedIn q.destination.address.family
      prefixLength := q.destination.length
      gateway := none
      preferredSource := q.wanted
      outputInterface := none
      table := 0
      priority := 0
      type := 0
      protocol := 0
      scope := 0 } := by
  rw [Route.decode?_payload q.regular_attributes, attributes, List.foldl_append]
  by_cases hhost : q.destination.length = q.destination.address.width
  · rw [if_pos (by simp [isHost, hhost]), Route.foldl_ofAddress_destination rfl,
      Route.foldl_ofAddress_preferredSource fun w hw => (hwanted w hw).symm, if_pos hhost]
    simp [Route.ofHeader, header]
  · rw [if_neg (by simp [isHost, hhost]), if_neg hhost]
    change some ((ofAddress RouteAttribute.preferredSource q.wanted).foldl Route.absorb
      (Route.ofHeader q.header)) = _
    rw [Route.foldl_ofAddress_preferredSource fun w hw => (hwanted w hw).symm]
    simp [Route.ofHeader, header]

end RouteQuery

/-! ## All three -/

/-- An address, a rule and a question for routes are written just where the buffer is as large as
their parts.  What is written is one message, and it says what they say: an address is read as the
record that names it as the host's own; a rule has its priority in an attribute, and its table too
if it is above 255, else in the header; a question names its destination if it asks for all bits of
it, and the source wanted, if it is of the same family. -/
theorem requests_read_back (type : MessageType) (flags : MessageFlags) (capacity : Nat) :
    (∀ a : HostAddress,
      ((∃ d, (new type flags capacity).edited a.write = .ok d) ↔ a.requestSize ≤ capacity) ∧
      ∀ d, (new type flags capacity).edited a.write = .ok d → ∃ m, d.IsMessage type flags m ∧
        InterfaceAddress.decode? m.payload = some {
          index := a.index
          family := a.address.address.family
          prefixLength := a.address.length
          hostAddress := some a.address.address
          address := none }) ∧
    (∀ rule : Rule,
      ((∃ d, (new type flags capacity).edited rule.write = .ok d) ↔
        rule.requestSize ≤ capacity) ∧
      ∀ d, (new type flags capacity).edited rule.write = .ok d → ∃ m h attributes,
        d.IsMessage type flags m ∧
        RuleHeader.decode m.payload = .ok h ∧
        walk (m.payload.drop RuleHeader.size) = attributes ∧
        h.family = rule.family ∧
        attributes.map Attribute.kind =
          (if 255 < rule.table then [RuleAttribute.priority, RuleAttribute.table]
          else [RuleAttribute.priority]) ∧
        lastValue? RuleAttribute.priority uint32? attributes = some rule.priority ∧
        (lastValue? RuleAttribute.table uint32? attributes).getD h.table.toUInt32 =
          rule.table) ∧
    (∀ q : RouteQuery,
      ((∃ d, (new type flags capacity).edited q.write = .ok d) ↔ q.requestSize ≤ capacity) ∧
      ∀ d, (new type flags capacity).edited q.write = .ok d → ∃ m, d.IsMessage type flags m ∧
        ((∀ w ∈ q.wanted, w.family = q.destination.address.family) →
          Route.decode? m.payload = some {
            family := q.destination.address.family
            destination :=
              if q.destination.length = q.destination.address.width then q.destination.address
              else .unspecifiedIn q.destination.address.family
            prefixLength := q.destination.length
            gateway := none
            preferredSource := q.wanted
            outputInterface := none
            table := 0
            priority := 0
            type := 0
            protocol := 0
            scope := 0 })) := by
  refine ⟨fun a => ?_, fun rule => ?_, fun q => ?_⟩
  · obtain ⟨hroom, hreads⟩ := reads_back a.writes a.length_payload a.size_lt_requestSize
      a.length_payload_mod_four a.requestSize_lt type flags capacity
    refine ⟨hroom, fun d hd => ?_⟩
    obtain ⟨m, hm, hpayload⟩ := hreads d hd
    have hdecode := a.decode?_payload
    rw [HostAddress.payload, ← hpayload] at hdecode
    exact ⟨m, hm, hdecode⟩
  · obtain ⟨hroom, hreads⟩ := reads_back rule.writes rule.length_payload rule.size_lt_requestSize
      rule.length_payload_mod_four rule.requestSize_lt type flags capacity
    refine ⟨hroom, fun d hd => ?_⟩
    obtain ⟨m, hm, hpayload⟩ := hreads d hd
    have hdecode := rule.decode_payload
    have hwalk := rule.walk_payload
    rw [Rule.payload, ← hpayload] at hdecode hwalk
    refine ⟨m, rule.header, rule.attributes, hm, hdecode, hwalk, rfl, rule.kinds_attributes,
      rule.priority_attributes, ?_⟩
    rw [rule.table_attributes]
    exact SourceRoute.table_eq rule.table
  · obtain ⟨hroom, hreads⟩ := reads_back q.writes q.length_payload q.size_lt_requestSize
      (RouteHeader.length_payload_mod_four q.regular_attributes q.header) q.requestSize_lt type
      flags capacity
    refine ⟨hroom, fun d hd => ?_⟩
    obtain ⟨m, hm, hpayload⟩ := hreads d hd
    refine ⟨m, hm, fun hwanted => ?_⟩
    rw [hpayload]
    exact RouteQuery.decode?_payload hwanted

/-- A host of version 6, a rule for the least table that the header has no room for, and a question
for one host from a source of its family. -/
theorem requests_read_back_hosts :
    (∃ d m, (new .getRoute .request 68).edited (HostAddress.write ⟨7, ⟨.v6 1, 128⟩⟩) = .ok d ∧
      d.IsMessage .getRoute .request m ∧
      InterfaceAddress.decode? m.payload = some ⟨7, .inet6, 128, some (.v6 1), none⟩) ∧
    (∃ d m h, (new .getRoute .request 68).edited (Rule.write ⟨.inet6, 256, 9⟩) = .ok d ∧
      d.IsMessage .getRoute .request m ∧
      RuleHeader.decode m.payload = .ok h ∧ h.family = .inet6 ∧
      (walk (m.payload.drop RuleHeader.size)).map Attribute.kind =
        [RuleAttribute.priority, RuleAttribute.table]) ∧
    (∀ w ∈ some (Address.v4 0x0a000009), w.family = (Address.v4 0x0a000001).family) ∧
    ∃ d m, (new .getRoute .request 68).edited
        (RouteQuery.write ⟨⟨.v4 0x0a000001, 32⟩, some (.v4 0x0a000009)⟩) = .ok d ∧
      d.IsMessage .getRoute .request m ∧
      (Route.decode? m.payload).map (fun r => (r.destination, r.preferredSource)) =
        some (.v4 0x0a000001, some (.v4 0x0a000009)) := by
  have hfamily : ∀ w ∈ some (Address.v4 0x0a000009),
      w.family = (Address.v4 0x0a000001).family := by rintro _ ⟨⟩; rfl
  obtain ⟨haddress, hrule, hquery⟩ := requests_read_back .getRoute .request 68
  obtain ⟨hroom, hreads⟩ := haddress ⟨7, ⟨.v6 1, 128⟩⟩
  obtain ⟨d, hd⟩ := hroom.2 (by decide)
  obtain ⟨m, hm, hdecode⟩ := hreads d hd
  obtain ⟨hroomRule, hreadsRule⟩ := hrule ⟨.inet6, 256, 9⟩
  obtain ⟨e, he⟩ := hroomRule.2 (by decide)
  obtain ⟨n, h, _, hn, hheader, rfl, hruleFamily, hkinds, -⟩ := hreadsRule e he
  obtain ⟨hroomQuery, hreadsQuery⟩ := hquery ⟨⟨.v4 0x0a000001, 32⟩, some (.v4 0x0a000009)⟩
  obtain ⟨f, hf⟩ := hroomQuery.2 (by decide)
  obtain ⟨k, hk, hanswer⟩ := hreadsQuery f hf
  refine ⟨⟨d, m, hd, hm, hdecode⟩, ⟨e, n, h, he, hn, hheader, hruleFamily, hkinds⟩, hfamily,
    f, k, hf, hk, ?_⟩
  rw [hanswer hfamily]
  rfl

end RouteControl
