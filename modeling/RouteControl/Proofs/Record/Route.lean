import RouteControl.Proofs.Attribute.Framing
import RouteControl.Proofs.Request.Contents
import RouteControl.Record.Route

/-!
# Reading route records

A header of the route family is read back, whatever comes behind it (`RouteHeader.decode_append`),
and so are regular attributes behind it (`RouteHeader.walk_payload`).
Each attribute that the requests hold sets the one field that it is about, where it holds a value of
the width of its kind (`absorb_destination` and the like); so a list with at most one attribute of a
kind sets the field to what is there, or leaves it.
-/

namespace RouteControl

open Bytes Attribute

theorem Attribute.kind_mk (type : UInt16) (payload : Bytes) :
    (Attribute.mk type payload).kind = type &&& AttributeHeader.kindMask := rfl

theorem RouteHeader.decode_append (h : RouteHeader) (rest : Bytes) :
    decode (h.bytes ++ rest) = .ok h := by
  have hsize : ¬(h.bytes ++ rest).length < size := by
    rw [List.length_append, length_bytes]
    omega
  have hflags : (h.bytes ++ rest).uint32At 8 = h.flags := by
    rw [bytes, List.append_assoc]
    exact uint32At_append [h.family, h.destinationLength, h.sourceLength, h.tos, h.table,
      h.protocol, h.scope, h.type] h.flags rest
  rw [decode, if_neg hsize, hflags]
  rfl

/-! ## Payloads -/

namespace RouteHeader

variable {attributes : List Attribute}

def payload (header : RouteHeader) (attributes : List Attribute) : Bytes :=
  stack [] (header.bytes :: attributes.map Attribute.bytes)

theorem payload_eq (header : RouteHeader) (attributes : List Attribute) :
    header.payload attributes = header.bytes ++ stack [] (attributes.map Attribute.bytes) :=
  stack_of_front_aligned (by simp [size]) _

section

variable (hregular : ∀ a ∈ attributes, a.Regular) (header : RouteHeader)
include hregular

theorem length_payload :
    (header.payload attributes).length = size + (attributes.map fun a => a.bytes.length).sum := by
  rw [payload_eq, List.length_append, header.length_bytes,
    Attribute.length_stack_of_regular hregular]

theorem length_payload_mod_four : (header.payload attributes).length % 4 = 0 := by
  have hsum := Attribute.sum_mod_four_of_regular hregular
  rw [length_payload hregular, size]
  omega

theorem length_payload_le :
    (header.payload attributes).length ≤ size + 20 * attributes.length := by
  have hsum := Attribute.sum_le_of_regular hregular
  rw [length_payload hregular]
  omega

theorem walk_payload :
    Attribute.walk ((header.payload attributes).drop size) = attributes := by
  rw [payload_eq, List.drop_left' header.length_bytes]
  exact Attribute.walk_stack fun a ha => (hregular a ha).fits

end

end RouteHeader

namespace Route

variable {r : Route} {a : Address}

theorem decode?_append (h : RouteHeader) (rest : Bytes) :
    decode? (h.bytes ++ rest) = some ((Attribute.walk rest).foldl absorb (ofHeader h)) := by
  rw [decode?, record?_of_decode (RouteHeader.decode_append h rest),
    List.drop_left' h.length_bytes]

theorem decode?_payload {attributes : List Attribute} (hregular : ∀ a ∈ attributes, a.Regular)
    (h : RouteHeader) :
    decode? (h.payload attributes) = some (attributes.foldl absorb (ofHeader h)) := by
  rw [RouteHeader.payload_eq, decode?_append]
  rw [Attribute.walk_stack fun a ha => (hregular a ha).fits]

/-! ## One attribute -/

theorem absorb_destination (h : r.family = a.family) :
    r.absorb ⟨RouteAttribute.destination, a.octets⟩ = { r with destination := a } := by
  have hvalue : Address.ofOctetsIn? r.family a.octets = some a := h ▸ a.ofOctetsIn?_octets
  simp +decide [absorb, Attribute.kind_mk, hvalue]

theorem absorb_preferredSource (h : r.family = a.family) :
    r.absorb ⟨RouteAttribute.preferredSource, a.octets⟩ =
      { r with preferredSource := some a } := by
  have hvalue : Address.ofOctetsIn? r.family a.octets = some a := h ▸ a.ofOctetsIn?_octets
  simp +decide [absorb, Attribute.kind_mk, hvalue]

theorem absorb_gateway (h : r.family = a.family) :
    r.absorb ⟨RouteAttribute.gateway, a.octets⟩ = { r with gateway := some a } := by
  have hvalue : Address.ofOctetsIn? r.family a.octets = some a := h ▸ a.ofOctetsIn?_octets
  simp +decide [absorb, Attribute.kind_mk, hvalue]

theorem absorb_outputInterface (r : Route) (word : UInt32) :
    r.absorb ⟨RouteAttribute.outputInterface, ofUInt32 word⟩ =
      { r with outputInterface := some word } := by
  simp +decide [absorb, Attribute.kind_mk, uint32?_ofUInt32]

theorem absorb_table (r : Route) (word : UInt32) :
    r.absorb ⟨RouteAttribute.table, ofUInt32 word⟩ = { r with table := word } := by
  simp +decide [absorb, Attribute.kind_mk, uint32?_ofUInt32]

theorem absorb_metrics (r : Route) (payload : Bytes) :
    r.absorb ⟨RouteAttribute.metrics ||| AttributeHeader.nestedFlag, payload⟩ = r := by
  simp +decide [absorb, Attribute.kind_mk]

/-! ## At most one attribute -/

theorem foldl_ofAddress_destination (h : r.family = a.family) :
    (ofAddress RouteAttribute.destination (some a)).foldl absorb r =
      { r with destination := a } :=
  absorb_destination h

theorem foldl_ofAddress_preferredSource {source : Option Address}
    (h : ∀ a ∈ source, r.family = a.family) :
    (ofAddress RouteAttribute.preferredSource source).foldl absorb r =
      { r with preferredSource := source <|> r.preferredSource } := by
  cases source with
  | none => rfl
  | some a => exact absorb_preferredSource (h a rfl)

theorem foldl_ofAddress_gateway {gateway : Option Address}
    (h : ∀ a ∈ gateway, r.family = a.family) :
    (ofAddress RouteAttribute.gateway gateway).foldl absorb r =
      { r with gateway := gateway <|> r.gateway } := by
  cases gateway with
  | none => rfl
  | some a => exact absorb_gateway (h a rfl)

theorem foldl_ofWord_outputInterface (r : Route) (word : Option UInt32) :
    (ofWord RouteAttribute.outputInterface word).foldl absorb r =
      { r with outputInterface := word <|> r.outputInterface } := by
  cases word with
  | none => rfl
  | some word => exact absorb_outputInterface r word

theorem foldl_ofWord_table (r : Route) (word : Option UInt32) :
    (ofWord RouteAttribute.table word).foldl absorb r =
      { r with table := word.getD r.table } := by
  cases word with
  | none => rfl
  | some word => exact absorb_table r word

end Route

end RouteControl
