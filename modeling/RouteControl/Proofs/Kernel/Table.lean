import RouteControl.Proofs.Kernel.Script
import RouteControl.Proofs.Record.Route

/-!
# Scripted routing tables

A routing table as a script lists it: records of routes, and the end of several messages behind
them.  A scripted route is read as the route that it was made from (`decode?_route`), and one
datagram with a whole table completes the response to a request for it (`completes_listing`).
-/

namespace RouteControl.Script

open Attribute

/-- What the records of a table are listed as, with the end of several messages behind them. -/
def listing (table : List Record) (seq : UInt32) : List Message :=
  (table ++ [Record.done]).map (·.message seq)

/-- The routes in a table of records; a record that does not decode is left out. -/
def routesOf (table : List Record) : List Route :=
  (table.map (·.payload)).filterMap Route.decode?

theorem layOut_eq_stack (header : Bytes) (attributes : List Attribute) :
    layOut header attributes = Bytes.stack header (attributes.map bytes) := by
  rw [Bytes.stack, List.foldl_map]
  rfl

/-! ## Records of routes -/

namespace Record

def routeHeader (destination : Address) (length : UInt8) (gateway : Option Address) :
    RouteHeader where
  family := destination.family
  destinationLength := length
  table := Table.headerByte Table.main
  scope := (if gateway.isSome then RouteScope.universe else RouteScope.link).toByte
  type := RouteType.unicast.toByte

def routeAttributes (destination : Address) (source gateway : Option Address) : List Attribute :=
  ofAddress RouteAttribute.destination (some destination) ++
    (ofAddress RouteAttribute.preferredSource source ++ ofAddress RouteAttribute.gateway gateway)

private theorem regular_routeAttributes (destination : Address) (source gateway : Option Address) :
    ∀ a ∈ routeAttributes destination source gateway, a.Regular := by
  simp only [routeAttributes, List.forall_mem_append]
  exact ⟨regular_ofAddress _ _, regular_ofAddress _ _, regular_ofAddress _ _⟩

private theorem layOut_eq (header : RouteHeader) (attributes : List Attribute) :
    layOut header.bytes attributes = header.payload attributes := by
  rw [layOut_eq_stack, RouteHeader.payload, Bytes.stack_cons, Bytes.padded_of_aligned rfl,
    List.nil_append]

/-- The route that a scripted record is made from. -/
def scriptedRoute (destination : Address) (length : UInt8) (source gateway : Option Address) :
    Route where
  family := destination.family
  destination := destination
  prefixLength := length
  gateway := gateway
  preferredSource := source
  outputInterface := none
  table := Table.main
  priority := 0
  type := RouteType.unicast.toByte
  protocol := 0
  scope := (if gateway.isSome then RouteScope.universe else RouteScope.link).toByte

variable {destination : Address} {length : UInt8} {source gateway : Option Address}

theorem payload_route : (route destination length source gateway).payload =
    (routeHeader destination length gateway).payload
      (routeAttributes destination source gateway) :=
  layOut_eq _ _

/-- A scripted route is read as the route that it was made from. -/
theorem decode?_route (hsource : ∀ a ∈ source, destination.family = a.family)
    (hgateway : ∀ a ∈ gateway, destination.family = a.family) :
    Route.decode? (route destination length source gateway).payload =
      some (scriptedRoute destination length source gateway) := by
  rw [payload_route, Route.decode?_payload (regular_routeAttributes destination source gateway)]
  simp only [routeAttributes, List.foldl_append]
  rw [Route.foldl_ofAddress_destination, Route.foldl_ofAddress_preferredSource,
    Route.foldl_ofAddress_gateway]
  · simp [Route.ofHeader, routeHeader, scriptedRoute, Table.headerByte, Table.main]
  · exact hgateway
  · exact hsource
  · rfl

/-- A route as one of several messages, under the number of the request. -/
structure IsListed (r : Record) : Prop where
  type_eq : r.type = .newRoute
  flags_eq : r.flags = .multi
  seq_eq : r.seq = none
  fits : r.Fits

theorem isListed_route (destination : Address) (length : UInt8) (source gateway : Option Address) :
    (route destination length source gateway).IsListed where
  type_eq := rfl
  flags_eq := rfl
  seq_eq := rfl
  fits := by
    have hle := RouteHeader.length_payload_le
      (regular_routeAttributes destination source gateway)
      (routeHeader destination length gateway)
    have hdestination := length_ofAddress_le RouteAttribute.destination (some destination)
    have hsource := length_ofAddress_le RouteAttribute.preferredSource source
    have hgateway := length_ofAddress_le RouteAttribute.gateway gateway
    have hcount : (routeAttributes destination source gateway).length ≤ 3 := by
      simp only [routeAttributes, List.length_append]
      omega
    rw [Fits, payload_route, UInt32.size, MessageHeader.size]
    rw [RouteHeader.size] at hle
    omega

end Record

theorem routesOf_cons {destination : Address} {length : UInt8} {source gateway : Option Address}
    (hsource : ∀ a ∈ source, destination.family = a.family)
    (hgateway : ∀ a ∈ gateway, destination.family = a.family) (table : List Record) :
    routesOf (.route destination length source gateway :: table) =
      Record.scriptedRoute destination length source gateway :: routesOf table := by
  rw [routesOf, List.map_cons, List.filterMap_cons_some (Record.decode?_route hsource hgateway),
    routesOf]

/-! ## Tables in one datagram -/

variable {table : List Record}

theorem completes_listing (h : ∀ r ∈ table, r.IsListed) (seq : UInt32) :
    Connection.Completes seq [.records 0 (table ++ [.done])] (listing table seq) := by
  have hfits : ∀ r ∈ table ++ [Record.done], r.Fits :=
    List.forall_mem_append.2 ⟨fun r hr => (h r hr).fits, List.forall_mem_singleton.2 (by decide)⟩
  have hseq : ∀ m ∈ listing table seq, m.header.seq = seq := by
    intro m hm
    obtain ⟨r, hr, rfl⟩ := List.mem_map.1 hm
    rcases List.mem_append.1 hr with hr | hr
    · simp [Record.message, (h r hr).seq_eq]
    · obtain rfl := List.mem_singleton.1 hr
      rfl
  have hanswers : Connection.answers seq [.records 0 (table ++ [.done])] = listing table seq := by
    rw [Connection.answers_singleton, Reply.messages_records hfits]
    exact List.filter_eq_self.2 fun m hm => by simpa using hseq m hm
  have hterminated : Message.Terminated (listing table seq) := by
    refine ⟨table.map (·.message seq), Record.done.message seq, ?_, ?_, rfl⟩
    · rw [listing, List.map_append, List.map_singleton]
    · intro m hm
      obtain ⟨r, hr, rfl⟩ := List.mem_map.1 hm
      obtain ⟨htype, hflags, -, -⟩ := h r hr
      simp only [MessageHeader.isFinal, MessageHeader.isDone, MessageHeader.isMulti,
        Record.message, htype, hflags]
      decide
  exact Connection.completes_append Connection.pending_nil rfl (hanswers ▸ List.prefix_rfl)
    hterminated

end RouteControl.Script
