import RouteControl.Proofs.Record.Route

/-!
# Source routes as records

The payload of a source route is as long as its parts (`length_payload`), and it is read as the
record that says the same of the route (`decode?_payload`).  The metrics, which a record does not
keep, stand in one attribute of their own (`metricsIn_payload`).
-/

namespace RouteControl

open Bytes Attribute

namespace RouteMetrics

def values (m : RouteMetrics) : List (RouteMetric × UInt32) :=
  (m.mtu.toList.map fun value => (RouteMetric.mtu, value)) ++
    m.advertisedMss.toList.map fun value => (RouteMetric.advertisedMss, value)

theorem attributes_eq (m : RouteMetrics) :
    m.attributes = m.values.map fun metric => ⟨metric.1, ofUInt32 metric.2⟩ := by
  simp [attributes, values, ofWord, Function.comp_def]

theorem regular_attributes (m : RouteMetrics) : ∀ a ∈ m.attributes, a.Regular :=
  List.forall_mem_append.2 ⟨regular_ofWord _ _, regular_ofWord _ _⟩

theorem length_attributes (m : RouteMetrics) :
    (stack [] (m.attributes.map Attribute.bytes)).length = 8 * m.values.length := by
  have height : m.attributes.map (fun a => a.bytes.length) = m.values.map fun _ => 8 := by
    simp [attributes_eq, Function.comp_def, AttributeHeader.size]
  rw [length_stack_of_regular m.regular_attributes, height, List.map_const',
    List.sum_replicate_nat, Nat.mul_comm]

private theorem length_values_le (m : RouteMetrics) : m.values.length ≤ 2 := by
  cases hmtu : m.mtu <;> cases hmss : m.advertisedMss <;> simp [values, hmtu, hmss]

theorem regular_nest (m : RouteMetrics) : ∀ a ∈ m.nest, a.Regular := by
  have hle := m.length_values_le
  rw [nest]
  split
  · rw [List.forall_mem_singleton, Regular, length_attributes]
    omega
  · simp

end RouteMetrics

namespace SourceRoute

variable {r : SourceRoute}

def payload (r : SourceRoute) (outputInterface : Option UInt32) : Bytes :=
  stack [] (r.header.bytes :: (r.attributes outputInterface true).map Attribute.bytes)

theorem regular_attributes (r : SourceRoute) (outputInterface : Option UInt32)
    (withMetrics : Bool) : ∀ a ∈ r.attributes outputInterface withMetrics, a.Regular := by
  have hmetrics : ∀ a ∈ (if withMetrics then r.metrics.nest else []), a.Regular := by
    split
    · exact r.metrics.regular_nest
    · simp
  simp only [attributes, plainAttributes, List.forall_mem_append]
  exact ⟨⟨regular_ofAddress _ _, regular_ofAddress _ _, regular_ofAddress _ _, regular_ofWord _ _,
    regular_ofWord _ _⟩, hmetrics⟩

theorem payload_eq (r : SourceRoute) (outputInterface : Option UInt32) :
    r.payload outputInterface = r.header.payload (r.attributes outputInterface true) := rfl

theorem walk_payload (r : SourceRoute) (outputInterface : Option UInt32) :
    walk ((r.payload outputInterface).drop RouteHeader.size) = r.attributes outputInterface true :=
  RouteHeader.walk_payload (r.regular_attributes outputInterface true) r.header

/-! ## Length -/

def addressSize (a : Address) : Nat := AttributeHeader.size + if a.isV4 then 4 else 16

def metricsSize (m : RouteMetrics) : Nat :=
  if m.hasAny then AttributeHeader.size + 8 * m.values.length else 0

def requestSize (r : SourceRoute) (outputInterface : Option UInt32) : Nat :=
  MessageHeader.size + RouteHeader.size +
    addressSize r.destination.address * (if r.gateway.isSome then 3 else 2) +
      (if outputInterface.isSome then 8 else 0) + (if 255 < r.table then 8 else 0) +
        metricsSize r.metrics

theorem family_of_validate (h : r.validate = .ok ()) :
    ∀ a ∈ r.otherAddresses, a.family = r.destination.address.family := by
  intro a ha
  refine Decidable.byContradiction fun hne => ?_
  simp only [validate] at h
  split at h
  · cases h
  split at h
  · cases h
  split at h
  · cases h
  · rename_i hnone
    exact absurd (List.find?_eq_none.1 hnone a ha) (by simpa using hne)

private theorem addressSize_of_family {a b : Address} (h : a.family = b.family) :
    addressSize a = addressSize b := by
  have hdiffer : Family.inet ≠ Family.inet6 := by decide
  cases a <;> cases b
  · rfl
  · exact absurd h hdiffer
  · exact absurd h.symm hdiffer
  · rfl

theorem sum_ofWord (kind : UInt16) (word : Option UInt32) :
    ((ofWord kind word).map fun a => a.bytes.length).sum = if word.isSome then 8 else 0 := by
  cases word <;> simp [ofWord, AttributeHeader.size]

theorem sum_ofAddress (kind : UInt16) (address : Option Address) :
    ((ofAddress kind address).map fun a => a.bytes.length).sum =
      (address.map addressSize).getD 0 := by
  cases address <;> simp [ofAddress, addressSize, Address.length_octets]

theorem sum_nest (m : RouteMetrics) :
    (m.nest.map fun a => a.bytes.length).sum = metricsSize m := by
  rw [RouteMetrics.nest, metricsSize]
  split <;> simp [m.length_attributes]

theorem isSome_large? (table : UInt32) : (Table.large? table).isSome ↔ 255 < table := by
  simp only [Table.large?, Table.needsAttribute, decide_eq_true_eq]
  split <;> simp_all

theorem length_payload (h : r.validate = .ok ()) (outputInterface : Option UInt32) :
    MessageHeader.size + (r.payload outputInterface).length = r.requestSize outputInterface := by
  have hfamily := family_of_validate h
  have hsource : addressSize r.source = addressSize r.destination.address :=
    addressSize_of_family (hfamily _ (by simp [otherAddresses]))
  have hgateway : (r.gateway.map addressSize).getD 0 =
      if r.gateway.isSome then addressSize r.destination.address else 0 := by
    cases hg : r.gateway with
    | none => rfl
    | some gateway =>
        exact addressSize_of_family (hfamily _ (by simp [otherAddresses, hg]))
  rw [payload_eq, RouteHeader.length_payload (r.regular_attributes outputInterface true)]
  simp only [attributes, plainAttributes, if_true, List.map_append, List.sum_append,
    sum_ofAddress, sum_ofWord, sum_nest, isSome_large?, Option.map_some, Option.getD_some, hsource,
    hgateway, requestSize]
  split <;> omega

theorem length_payload_mod_four (r : SourceRoute) (outputInterface : Option UInt32) :
    (r.payload outputInterface).length % 4 = 0 :=
  RouteHeader.length_payload_mod_four (r.regular_attributes outputInterface true) r.header

theorem size_lt_requestSize (r : SourceRoute) (outputInterface : Option UInt32) :
    MessageHeader.size < r.requestSize outputInterface := by
  simp only [requestSize, RouteHeader.size]
  omega

/-- A request never gets near to what the length field of a message can tell. -/
theorem requestSize_le (r : SourceRoute) (outputInterface : Option UInt32) :
    r.requestSize outputInterface ≤ 124 := by
  have haddress : addressSize r.destination.address ≤ 20 := by
    rw [addressSize, AttributeHeader.size]
    split <;> omega
  have hmetrics : metricsSize r.metrics ≤ 20 := by
    have hle := r.metrics.length_values_le
    rw [metricsSize, AttributeHeader.size]
    split <;> omega
  simp only [requestSize, MessageHeader.size, RouteHeader.size]
  split <;> split <;> split <;> omega

/-! ## Record -/

/-- The record that says the same as the route. -/
def record (r : SourceRoute) (outputInterface : Option UInt32) : Route where
  family := r.destination.address.family
  destination := r.destination.address
  prefixLength := r.destination.length
  gateway := r.gateway
  preferredSource := some r.source
  outputInterface := outputInterface
  table := r.table
  priority := 0
  type := RouteType.unicast.toByte
  protocol := RouteProtocol.static.toByte
  scope := RouteScope.universe.toByte

theorem table_eq (table : UInt32) :
    (Table.large? table).getD (Table.headerByte table).toUInt32 = table := by
  simp only [Table.large?, Table.needsAttribute, Table.headerByte, decide_eq_true_eq]
  split
  · rfl
  · rename_i hsmall
    have hle : table.toNat ≤ 255 := by simpa [UInt32.lt_iff_toNat_lt] using hsmall
    apply UInt32.toNat_inj.1
    simp
    omega

theorem foldl_nest (record : Route) (m : RouteMetrics) :
    m.nest.foldl Route.absorb record = record := by
  rw [RouteMetrics.nest]
  split
  · exact Route.absorb_metrics record _
  · rfl

theorem decode?_payload (h : r.validate = .ok ()) (outputInterface : Option UInt32) :
    Route.decode? (r.payload outputInterface) = some (r.record outputInterface) := by
  have hfamily := family_of_validate h
  have hsource : ∀ a ∈ some r.source, r.destination.address.family = a.family := fun a ha =>
    (hfamily a (by simp_all [otherAddresses])).symm
  have hgateway : ∀ a ∈ r.gateway, r.destination.address.family = a.family := fun a ha =>
    (hfamily a (by simp [otherAddresses, Option.mem_def.1 ha])).symm
  rw [payload_eq, Route.decode?_payload (r.regular_attributes outputInterface true)]
  simp only [attributes, plainAttributes, if_true, List.foldl_append, foldl_nest,
    Route.foldl_ofWord_table, Route.foldl_ofWord_outputInterface]
  rw [Route.foldl_ofAddress_destination, Route.foldl_ofAddress_preferredSource,
    Route.foldl_ofAddress_gateway]
  · simp [Route.ofHeader, header, table_eq, record]
  · exact hgateway
  · exact hsource
  · rfl

/-! ## Metrics -/

/-- The metrics in the payload of a route message: one list for each attribute with metrics, and in
it each metric with the word that it holds, if it holds one. -/
def metricsIn (payload : Bytes) : List (List (RouteMetric × Option UInt32)) :=
  ((walk (payload.drop RouteHeader.size)).filter (·.kind = RouteAttribute.metrics)).map fun nest =>
    (walk nest.payload).map fun metric => (metric.kind, metric.payload.uint32?)

theorem kind_nest (payload : Bytes) :
    (Attribute.mk (RouteAttribute.metrics ||| AttributeHeader.nestedFlag) payload).kind =
      RouteAttribute.metrics := by
  rw [kind_mk]
  rfl

theorem kind_ne_metrics_of_mem_plainAttributes {outputInterface : Option UInt32} {a : Attribute}
    (h : a ∈ r.plainAttributes outputInterface) : a.kind ≠ RouteAttribute.metrics := by
  simp only [plainAttributes, ofAddress, ofWord, List.mem_append, List.mem_map] at h
  rcases h with ⟨_, -, rfl⟩ | ⟨_, -, rfl⟩ | ⟨_, -, rfl⟩ | ⟨_, -, rfl⟩ | ⟨_, -, rfl⟩
  all_goals
    rw [kind_mk]
    decide

private theorem kind_of_mem_values {m : RouteMetrics} {metric : RouteMetric × UInt32}
    (h : metric ∈ m.values) : metric.1 &&& AttributeHeader.kindMask = metric.1 := by
  have hmtu : RouteMetric.mtu &&& AttributeHeader.kindMask = RouteMetric.mtu := by decide
  have hmss : RouteMetric.advertisedMss &&& AttributeHeader.kindMask =
      RouteMetric.advertisedMss := by decide
  simp only [RouteMetrics.values, List.mem_append, List.mem_map] at h
  rcases h with ⟨_, -, rfl⟩ | ⟨_, -, rfl⟩
  · exact hmtu
  · exact hmss

theorem walk_nest (m : RouteMetrics) :
    (walk (stack [] (m.attributes.map Attribute.bytes))).map
        (fun metric => (metric.kind, metric.payload.uint32?)) =
      m.values.map fun metric => (metric.1, some metric.2) := by
  rw [walk_stack fun a ha => (m.regular_attributes a ha).fits, m.attributes_eq, List.map_map]
  refine List.map_congr_left fun metric hmetric => ?_
  rw [Function.comp_apply, kind_mk, kind_of_mem_values hmetric, uint32?_ofUInt32]

theorem metricsIn_payload (r : SourceRoute) (outputInterface : Option UInt32) :
    metricsIn (r.payload outputInterface) =
      if r.metrics.hasAny then [r.metrics.values.map fun metric => (metric.1, some metric.2)]
      else [] := by
  have hplain : (r.plainAttributes outputInterface).filter (·.kind = RouteAttribute.metrics) = [] :=
    List.filter_eq_nil_iff.2 fun a ha => by
      simpa using kind_ne_metrics_of_mem_plainAttributes ha
  rw [metricsIn, walk_payload, attributes, if_pos rfl, List.filter_append, hplain, List.nil_append,
    RouteMetrics.nest]
  split
  · rw [List.filter_cons_of_pos (by simp [kind_nest]), List.filter_nil, List.map_singleton,
      walk_nest]
  · rfl

end SourceRoute

end RouteControl
