import RouteControl.Proofs.Connection.SourceRoutes
import RouteControl.Proofs.Request.RouteMessage

/-!
# Deleting what was added

The requests to add and to delete an object are drafted from the same parts, under another type and
other flags (`drafted_iff`).  Only the metrics of a source route are in the one and not in the
other: they come last, so that what names the route stands in front of them, byte for byte
(`SourceRoute.payload_eq_selector_append`).  So what was added is what is deleted
(`delete_names_what_add_made`).
-/

namespace RouteControl

open Bytes Attribute

/-! ## What names an object -/

private theorem RouteHeader.payload_append {front : List Attribute}
    (hfront : ∀ a ∈ front, a.Regular) (header : RouteHeader) (back : List Attribute) :
    header.payload (front ++ back) =
      header.payload front ++ stack [] (back.map Attribute.bytes) := by
  have hbehind := stack_append (length_payload_mod_four hfront header) [] (back.map Attribute.bytes)
  rw [List.append_nil] at hbehind
  rw [← hbehind, payload, payload, List.map_append, ← List.cons_append, stack_append_blocks]

private theorem RouteMetrics.stack_nest_eq_nil_iff (m : RouteMetrics) :
    stack [] (m.nest.map Attribute.bytes) = [] ↔ m.hasAny = false := by
  rw [← List.length_eq_zero_iff, length_stack_of_regular m.regular_nest, SourceRoute.sum_nest,
    SourceRoute.metricsSize, AttributeHeader.size]
  split <;> simp_all

namespace SourceRoute

variable {r : SourceRoute}

/-- What names a source route to the kernel: all that a request tells of it but for its metrics. -/
def selector (r : SourceRoute) (outputInterface : Option UInt32) : Bytes :=
  r.header.payload (r.plainAttributes outputInterface)

private theorem regular_plainAttributes (r : SourceRoute) (outputInterface : Option UInt32) :
    ∀ a ∈ r.plainAttributes outputInterface, a.Regular :=
  fun a ha => r.regular_attributes outputInterface true a (List.mem_append_left _ ha)

theorem payload_eq_selector_append (r : SourceRoute) (outputInterface : Option UInt32) :
    r.payload outputInterface =
      r.selector outputInterface ++ stack [] (r.metrics.nest.map Attribute.bytes) :=
  RouteHeader.payload_append (r.regular_plainAttributes outputInterface) r.header r.metrics.nest

theorem walk_selector (r : SourceRoute) (outputInterface : Option UInt32) :
    walk ((r.selector outputInterface).drop RouteHeader.size) =
      (walk ((r.payload outputInterface).drop RouteHeader.size)).filter
        (·.kind ≠ RouteAttribute.metrics) := by
  have hplain : (r.plainAttributes outputInterface).filter (·.kind ≠ RouteAttribute.metrics) =
      r.plainAttributes outputInterface :=
    List.filter_eq_self.2 fun a ha => by simpa using kind_ne_metrics_of_mem_plainAttributes ha
  have hnest : r.metrics.nest.filter (·.kind ≠ RouteAttribute.metrics) = [] := by
    refine List.filter_eq_nil_iff.2 fun a ha => ?_
    have hmem : a ∈ if true then r.metrics.nest else [] := ha
    simpa using kind_of_mem_nest hmem
  rw [walk_payload, attributes, if_pos rfl, List.filter_append, hplain, hnest, List.append_nil]
  exact RouteHeader.walk_payload (r.regular_plainAttributes outputInterface) r.header

theorem writes_selector (r : SourceRoute) (outputInterface : Option UInt32) :
    Draft.Writes (r.write outputInterface false)
      (r.header.bytes :: (r.plainAttributes outputInterface).map Attribute.bytes) := by
  have hwrites := r.writes outputInterface false
  rwa [attributes, if_neg (by decide), List.append_nil] at hwrites

theorem decode?_selector (h : r.validate = .ok ()) (outputInterface : Option UInt32) :
    Route.decode? (r.selector outputInterface) = some (r.record outputInterface) := by
  have hpayload := decode?_payload h outputInterface
  rw [payload_eq, Route.decode?_payload (r.regular_attributes outputInterface true), attributes,
    if_pos rfl, List.foldl_append, foldl_nest] at hpayload
  rw [selector, Route.decode?_payload (r.regular_plainAttributes outputInterface), hpayload]

end SourceRoute

def HostAddress.requestSize (a : HostAddress) : Nat :=
  MessageHeader.size + AddressHeader.size + SourceRoute.addressSize a.address.address

def Rule.requestSize (rule : Rule) : Nat :=
  MessageHeader.size + RuleHeader.size + 8 + if 255 < rule.table then 8 else 0

def HostAddress.payload (a : HostAddress) : Bytes :=
  stack []
    [a.header.bytes, (Attribute.mk AddressAttribute.hostAddress a.address.address.octets).bytes]

def Rule.payload (rule : Rule) : Bytes :=
  stack [] (rule.header.bytes :: rule.attributes.map Attribute.bytes)

theorem HostAddress.length_payload (a : HostAddress) :
    MessageHeader.size + a.payload.length = a.requestSize := by
  rw [payload, stack_of_front_aligned (by simp [AddressHeader.size]), stack_cons,
    padded_of_aligned rfl]
  simp [requestSize, SourceRoute.addressSize, Address.length_octets, Nat.add_assoc]

theorem Rule.length_payload (rule : Rule) :
    MessageHeader.size + rule.payload.length = rule.requestSize := by
  have hregular : ∀ a ∈ rule.attributes, a.Regular :=
    List.forall_mem_append.2 ⟨regular_ofWord _ _, regular_ofWord _ _⟩
  rw [payload, stack_of_front_aligned (by simp [RuleHeader.size]), List.length_append,
    rule.header.length_bytes, length_stack_of_regular hregular, attributes, List.map_append,
    List.sum_append, SourceRoute.sum_ofWord, SourceRoute.sum_ofWord]
  simp only [SourceRoute.isSome_large?, Option.isSome_some, if_true, requestSize]
  omega

theorem HostAddress.size_lt_requestSize (a : HostAddress) : MessageHeader.size < a.requestSize := by
  simp only [requestSize, AddressHeader.size]
  omega

theorem Rule.size_lt_requestSize (rule : Rule) : MessageHeader.size < rule.requestSize := by
  simp only [requestSize, RuleHeader.size]
  omega

/-! ## Requests in pairs -/

namespace Connection

open Draft SourceRoute

variable {c : Connection} {type deleteType : MessageType} {flags : MessageFlags}
  {edit : Edit Unit} {blocks : List Bytes} {added d : Draft}

/-- Two requests that differ in the type and the flags of the header alone. -/
def SamePayload (added deleted : Bytes) (type deleteType : MessageType) (flags : MessageFlags) :
    Prop :=
  ∃ (header : MessageHeader) (payload : Bytes),
    header.type = type ∧ header.flags = .request ||| .ack ||| flags ∧
    added = header.bytes ++ payload ∧
    deleted = { header with
        type := deleteType
        flags := MessageFlags.request ||| MessageFlags.ack }.bytes ++ payload

theorem exists_deletion (h : Writes edit blocks)
    (hadded : c.run (compose (ackDraft type flags) edit) = (.ok added, c)) :
    ∃ deleted, c.run (compose (ackDraft deleteType 0) edit) = (.ok deleted, c) ∧
      SamePayload added.bytes deleted.bytes type deleteType flags := by
  obtain ⟨hroom, rfl⟩ := (drafted_iff h type flags).1 hadded
  exact ⟨_, (drafted_iff h deleteType 0).2 ⟨hroom, rfl⟩,
    (ackForm type flags c).headerFor (stack [] blocks), stack [] blocks, rfl, rfl, bytes_holding,
    bytes_holding⟩

theorem exists_added {total : Nat} (h : Writes edit blocks)
    (htotal : MessageHeader.size + (stack [] blocks).length = total)
    (hlarge : MessageHeader.size < total) (hroom : total ≤ c.settings.requestCapacity) :
    ∃ added, c.run (compose (ackDraft type flags) edit) = (.ok added, c) :=
  ⟨_, (drafted_iff h type flags).2 ⟨(Form.fits_ofCapacity_iff htotal hlarge).2 hroom, rfl⟩⟩

/-! ## Source routes -/

section

variable {r : SourceRoute} {outputInterface : Option UInt32}

/-- Two requests for a source route.  All that they say of it is what the second one says, and the
first one has the metrics behind it; the headers differ in the type and the flags, and each tells
the length of its own payload. -/
def SameSelector (r : SourceRoute) (outputInterface : Option UInt32) (added deleted : Bytes) :
    Prop :=
  ∃ (header : MessageHeader) (selector metrics : Bytes),
    header.type = .newRoute ∧ header.flags = .request ||| .ack ||| r.addFlags ∧
    header.length = UInt32.ofNat (16 + (selector ++ metrics).length) ∧
    added = header.bytes ++ (selector ++ metrics) ∧
    deleted = { header with
        type := .deleteRoute
        flags := MessageFlags.request ||| MessageFlags.ack
        length := UInt32.ofNat (16 + selector.length) }.bytes ++ selector ∧
    (metrics = [] ↔ r.metrics.hasAny = false) ∧
    walk (selector.drop 12) =
      (walk ((selector ++ metrics).drop 12)).filter (·.kind ≠ RouteAttribute.metrics) ∧
    Route.decode? (selector ++ metrics) = some (r.record outputInterface) ∧
    Route.decode? selector = some (r.record outputInterface)

private theorem run_of_validate {α : Type} (h : r.validate = .ok ()) (call : Call α) :
    c.run (ofExcept r.validate >>= fun _ => call) = c.run call := by
  rw [run_bind, run_ofExcept, h]

theorem exists_deletion_of_sourceRoute (h : r.validate = .ok ())
    (hadded : c.run (addSourceRouteRequest r outputInterface) = (.ok added, c)) :
    ∃ deleted, c.run (deleteSourceRouteRequest r outputInterface) = (.ok deleted, c) ∧
      SameSelector r outputInterface added.bytes deleted.bytes := by
  rw [addSourceRouteRequest, run_of_validate h] at hadded
  obtain ⟨hroom, rfl⟩ := (drafted_iff (r.writes outputInterface true) _ _).1 hadded
  have hsplit := r.payload_eq_selector_append outputInterface
  have hshorter : (ackForm .deleteRoute 0 c).Fits (r.selector outputInterface) := by
    refine hroom.of_length_le ?_
    change _ ≤ (r.payload outputInterface).length
    rw [hsplit, List.length_append]
    exact Nat.le_add_right _ _
  have hdeleted := (drafted_iff (r.writes_selector outputInterface) .deleteRoute 0).2
    ⟨hshorter, rfl⟩
  refine ⟨_, (run_of_validate h _).trans hdeleted,
    (ackForm .newRoute r.addFlags c).headerFor (r.payload outputInterface),
    r.selector outputInterface, stack [] (r.metrics.nest.map Attribute.bytes), ?_⟩
  rw [← hsplit]
  exact ⟨rfl, rfl, rfl, bytes_holding, bytes_holding, r.metrics.stack_nest_eq_nil_iff,
    r.walk_selector outputInterface, decode?_payload h outputInterface,
    decode?_selector h outputInterface⟩

end

/-- A request to add an object that is drafted at all is matched by a request to delete it, and one
is drafted where the buffer is as large as the parts.  For addresses and rules the two differ in
the type and the flags alone; for a source route that is fit to be asked for also in the metrics,
and in the length for them.  What names the route, and the record that both are read as, do not
depend on the metrics and on whether the route is exclusive. -/
theorem delete_names_what_add_made (c : Connection) :
    (∀ a : HostAddress,
      (a.requestSize ≤ c.settings.requestCapacity →
        ∃ added, c.run (addAddressRequest a) = (.ok added, c)) ∧
      ∀ added, c.run (addAddressRequest a) = (.ok added, c) →
        ∃ deleted, c.run (deleteAddressRequest a) = (.ok deleted, c) ∧
          SamePayload added.bytes deleted.bytes .newAddress .deleteAddress
            (.create ||| .replace)) ∧
    (∀ rule : Rule,
      (rule.requestSize ≤ c.settings.requestCapacity →
        ∃ added, c.run (addRuleRequest rule) = (.ok added, c)) ∧
      ∀ added, c.run (addRuleRequest rule) = (.ok added, c) →
        ∃ deleted, c.run (deleteRuleRequest rule) = (.ok deleted, c) ∧
          SamePayload added.bytes deleted.bytes .newRule .deleteRule (.create ||| .exclusive)) ∧
    (∀ (r : SourceRoute) (outputInterface : Option UInt32), r.validate = .ok () →
      (r.requestSize outputInterface ≤ c.settings.requestCapacity →
        ∃ added, c.run (addSourceRouteRequest r outputInterface) = (.ok added, c)) ∧
      ∀ added, c.run (addSourceRouteRequest r outputInterface) = (.ok added, c) →
        ∃ deleted, c.run (deleteSourceRouteRequest r outputInterface) = (.ok deleted, c) ∧
          SameSelector r outputInterface added.bytes deleted.bytes) ∧
    ∀ (r : SourceRoute) (outputInterface : Option UInt32) (metrics : RouteMetrics)
        (exclusive : Bool),
      { r with metrics, exclusive }.record outputInterface = r.record outputInterface ∧
      deleteSourceRouteRequest { r with metrics, exclusive } outputInterface =
        deleteSourceRouteRequest r outputInterface := by
  refine ⟨fun a => ⟨?_, fun added => exists_deletion a.writes⟩,
    fun rule => ⟨?_, fun added => exists_deletion rule.writes⟩,
    fun r outputInterface h => ⟨fun hroom => ?_, fun added => exists_deletion_of_sourceRoute h⟩,
    fun r outputInterface metrics exclusive => ⟨rfl, rfl⟩⟩
  · exact exists_added a.writes a.length_payload a.size_lt_requestSize
  · exact exists_added rule.writes rule.length_payload rule.size_lt_requestSize
  · rw [addSourceRouteRequest, run_of_validate h]
    exact exists_added (r.writes outputInterface true) (length_payload h outputInterface)
      (r.size_lt_requestSize outputInterface) hroom

theorem delete_names_what_add_made_crowdedRoute :
    (∃ added deleted,
      (withBuffer 124).run (addAddressRequest ⟨7, ⟨.v4 0x0a010203, 24⟩⟩) =
        (.ok added, withBuffer 124) ∧
      (withBuffer 124).run (deleteAddressRequest ⟨7, ⟨.v4 0x0a010203, 24⟩⟩) =
        (.ok deleted, withBuffer 124) ∧
      SamePayload added.bytes deleted.bytes .newAddress .deleteAddress (.create ||| .replace)) ∧
    (∃ added deleted,
      (withBuffer 124).run (addRuleRequest ⟨.inet, 256, 1000⟩) = (.ok added, withBuffer 124) ∧
      (withBuffer 124).run (deleteRuleRequest ⟨.inet, 256, 1000⟩) =
        (.ok deleted, withBuffer 124) ∧
      SamePayload added.bytes deleted.bytes .newRule .deleteRule (.create ||| .exclusive)) ∧
    crowdedRoute.validate = .ok () ∧
    ∃ added deleted,
      (withBuffer 124).run (addSourceRouteRequest crowdedRoute (some 7)) =
        (.ok added, withBuffer 124) ∧
      (withBuffer 124).run (deleteSourceRouteRequest crowdedRoute (some 7)) =
        (.ok deleted, withBuffer 124) ∧
      SameSelector crowdedRoute (some 7) added.bytes deleted.bytes := by
  have hvalid : crowdedRoute.validate = .ok () := rfl
  obtain ⟨haddresses, hrules, hroutes, -⟩ := delete_names_what_add_made (withBuffer 124)
  obtain ⟨haddress, haddressPair⟩ := haddresses ⟨7, ⟨.v4 0x0a010203, 24⟩⟩
  obtain ⟨hrule, hrulePair⟩ := hrules ⟨.inet, 256, 1000⟩
  obtain ⟨hroute, hroutePair⟩ := hroutes crowdedRoute (some 7) hvalid
  obtain ⟨addedAddress, haddedAddress⟩ := haddress (by decide)
  obtain ⟨addedRule, haddedRule⟩ := hrule (by decide)
  obtain ⟨addedRoute, haddedRoute⟩ := hroute (by decide)
  obtain ⟨deletedAddress, hdeletedAddress⟩ := haddressPair addedAddress haddedAddress
  obtain ⟨deletedRule, hdeletedRule⟩ := hrulePair addedRule haddedRule
  obtain ⟨deletedRoute, hdeletedRoute⟩ := hroutePair addedRoute haddedRoute
  exact ⟨⟨addedAddress, deletedAddress, haddedAddress, hdeletedAddress⟩,
    ⟨addedRule, deletedRule, haddedRule, hdeletedRule⟩, hvalid,
    addedRoute, deletedRoute, haddedRoute, hdeletedRoute⟩

end Connection

end RouteControl
