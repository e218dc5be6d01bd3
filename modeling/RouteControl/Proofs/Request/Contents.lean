import RouteControl.Proofs.Draft.Contents
import RouteControl.Request.HostAddress
import RouteControl.Request.RouteQuery
import RouteControl.Request.Rule
import RouteControl.Request.SourceRoute

/-!
# Contents of requests

What the requests for changes and for routes hold: a header of the family and a list of attributes,
told here as data (`Rule.attributes`, `SourceRoute.attributes`, `RouteQuery.attributes`), so that
reading them back is a matter of lists.
-/

namespace RouteControl

open Draft Bytes

namespace Attribute

def ofWord (kind : UInt16) (word : Option UInt32) : List Attribute :=
  word.toList.map fun word => ⟨kind, ofUInt32 word⟩

def ofAddress (kind : UInt16) (address : Option Address) : List Attribute :=
  address.toList.map fun address => ⟨kind, address.octets⟩

theorem regular_octets (kind : UInt16) (a : Address) : (mk kind a.octets).Regular := by
  simp only [Regular, a.length_octets]
  split <;> decide

theorem regular_ofWord (kind : UInt16) (word : Option UInt32) :
    ∀ a ∈ ofWord kind word, a.Regular := by
  intro a ha
  obtain ⟨w, -, rfl⟩ := List.mem_map.1 ha
  simp [Regular]

theorem regular_ofAddress (kind : UInt16) (address : Option Address) :
    ∀ a ∈ ofAddress kind address, a.Regular := by
  intro a ha
  obtain ⟨value, -, rfl⟩ := List.mem_map.1 ha
  exact regular_octets kind value

theorem length_ofWord_le (kind : UInt16) (word : Option UInt32) :
    (ofWord kind word).length ≤ 1 := by
  cases word <;> simp [ofWord]

theorem length_ofAddress_le (kind : UInt16) (address : Option Address) :
    (ofAddress kind address).length ≤ 1 := by
  cases address <;> simp [ofAddress]

theorem writes_address (kind : UInt16) (a : Address) :
    Writes (appendAttribute kind a.octets) [(Attribute.mk kind a.octets).bytes] :=
  writes_appendAttribute (regular_octets kind a).fits

end Attribute

open Attribute

theorem HostAddress.writes (a : HostAddress) :
    Writes a.write
      [a.header.bytes,
        (Attribute.mk AddressAttribute.hostAddress a.address.address.octets).bytes] :=
  (writes_append _).bind (writes_address _ _)

/-- The number of a table, where the header has no room for it. -/
def Table.large? (table : UInt32) : Option UInt32 :=
  if Table.needsAttribute table then some table else none

/-! ## Rules -/

def Rule.attributes (r : Rule) : List Attribute :=
  ofWord RuleAttribute.priority (some r.priority) ++
    ofWord RuleAttribute.table (Table.large? r.table)

theorem Rule.writes (r : Rule) :
    Writes r.write (r.header.bytes :: r.attributes.map Attribute.bytes) := by
  refine (writes_append _).bind ((writes_appendWord _ _).bind ?_)
  rw [Table.large?]
  split
  · exact writes_appendWord _ _
  · exact writes_pure

/-! ## Source routes -/

namespace RouteMetrics

def attributes (m : RouteMetrics) : List Attribute :=
  ofWord RouteMetric.mtu m.mtu ++ ofWord RouteMetric.advertisedMss m.advertisedMss

/-- The one attribute that holds the metrics, where any is given. -/
def nest (m : RouteMetrics) : List Attribute :=
  if m.hasAny then
    [⟨RouteAttribute.metrics ||| AttributeHeader.nestedFlag,
      stack [] (m.attributes.map Attribute.bytes)⟩]
  else []

theorem writes_metric (metric : RouteMetric) (value : Option UInt32) :
    Writes (writeMetric metric value) ((ofWord metric value).map Attribute.bytes) := by
  cases value with
  | none => exact writes_pure
  | some word => exact writes_appendWord metric word

theorem writes (m : RouteMetrics) : Writes m.write (m.nest.map Attribute.bytes) := by
  rw [write, nest]
  split
  · have hinner := (writes_metric .mtu m.mtu).bind (writes_metric .advertisedMss m.advertisedMss)
    rw [← List.map_append] at hinner
    have hnest := writes_nest RouteAttribute.metrics hinner
    simp only [bind_assoc] at hnest
    exact hnest
  · exact writes_pure

end RouteMetrics

namespace SourceRoute

/-- The attributes of a source route but for its metrics. -/
def plainAttributes (r : SourceRoute) (outputInterface : Option UInt32) : List Attribute :=
  ofAddress RouteAttribute.destination (some r.destination.address) ++
    (ofAddress RouteAttribute.preferredSource (some r.source) ++
      (ofAddress RouteAttribute.gateway r.gateway ++
        (ofWord RouteAttribute.outputInterface outputInterface ++
          ofWord RouteAttribute.table (Table.large? r.table))))

def attributes (r : SourceRoute) (outputInterface : Option UInt32) (withMetrics : Bool) :
    List Attribute :=
  r.plainAttributes outputInterface ++ if withMetrics then r.metrics.nest else []

theorem writes_writeAddress (kind : RouteAttribute) (value : Option Address) :
    Writes (writeAddress kind value) ((ofAddress kind value).map Attribute.bytes) := by
  cases value with
  | none => exact writes_pure
  | some a => exact writes_address kind a

theorem writes_writeWord (kind : RouteAttribute) (value : Option UInt32) :
    Writes (writeWord kind value) ((ofWord kind value).map Attribute.bytes) := by
  cases value with
  | none => exact writes_pure
  | some word => exact writes_appendWord kind word

theorem writes (r : SourceRoute) (outputInterface : Option UInt32) (withMetrics : Bool) :
    Writes (r.write outputInterface withMetrics)
      (r.header.bytes :: (r.attributes outputInterface withMetrics).map Attribute.bytes) := by
  have hmetrics : Writes (if withMetrics then r.metrics.write else pure ())
      ((if withMetrics then r.metrics.nest else []).map Attribute.bytes) := by
    split
    · exact r.metrics.writes
    · exact writes_pure
  have hwrites := (writes_append r.header.bytes).bind
    ((writes_writeAddress RouteAttribute.destination (some r.destination.address)).bind
      ((writes_writeAddress RouteAttribute.preferredSource (some r.source)).bind
        ((writes_writeAddress RouteAttribute.gateway r.gateway).bind
          ((writes_writeWord RouteAttribute.outputInterface outputInterface).bind
            ((writes_writeWord RouteAttribute.table (Table.large? r.table)).bind hmetrics)))))
  simp only [attributes, plainAttributes, List.map_append, List.append_assoc]
  exact hwrites

end SourceRoute

/-! ## Route queries -/

namespace RouteQuery

/-- The address asked for, where the question is about a single one, and the source wanted. -/
def attributes (q : RouteQuery) : List Attribute :=
  ofAddress RouteAttribute.destination (if q.isHost then some q.destination.address else none) ++
    ofAddress RouteAttribute.preferredSource q.wanted

theorem regular_attributes (q : RouteQuery) : ∀ a ∈ q.attributes, a.Regular :=
  List.forall_mem_append.2 ⟨regular_ofAddress _ _, regular_ofAddress _ _⟩

theorem length_attributes_le (q : RouteQuery) : q.attributes.length ≤ 2 := by
  have hdestination := length_ofAddress_le RouteAttribute.destination
    (if q.isHost then some q.destination.address else none)
  have hwanted := length_ofAddress_le RouteAttribute.preferredSource q.wanted
  rw [attributes, List.length_append]
  omega

theorem writes (q : RouteQuery) :
    Writes q.write (q.header.bytes :: q.attributes.map Attribute.bytes) := by
  have hwanted := SourceRoute.writes_writeAddress RouteAttribute.preferredSource q.wanted
  rw [attributes, List.map_append]
  refine (writes_append q.header.bytes).bind ?_
  by_cases hhost : q.isHost
  · simp only [hhost, if_true]
    exact (writes_address _ q.destination.address).bind hwanted
  · simp only [hhost]
    exact hwanted

end RouteQuery

end RouteControl
