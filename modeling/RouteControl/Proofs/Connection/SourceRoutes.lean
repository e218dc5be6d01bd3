import RouteControl.Proofs.Connection.Preparation
import RouteControl.Proofs.Request.SourceRoute

/-!
# Requests for source routes

A source route that is fit to be asked for fits into the buffer just when the buffer is as large as
what the parts of the route take up, and what is written there says all that the route says
(`addSourceRouteRequest_reads_back`).
-/

namespace RouteControl.Connection

open SourceRoute Draft

variable {r : SourceRoute} {outputInterface : Option UInt32} {c : Connection}

private theorem fits_payload_iff (h : r.validate = .ok ()) :
    (ackForm .newRoute r.addFlags c).Fits (r.payload outputInterface) ↔
      r.requestSize outputInterface ≤ c.settings.requestCapacity :=
  Form.fits_ofCapacity_iff (length_payload h outputInterface)
    (r.size_lt_requestSize outputInterface)

theorem run_addSourceRouteRequest (h : r.validate = .ok ()) :
    c.run (addSourceRouteRequest r outputInterface) =
      ((new .newRoute (.request ||| .ack ||| r.addFlags) c.settings.requestCapacity).edited
        (r.write outputInterface true), c) := by
  rw [addSourceRouteRequest, run_bind, run_ofExcept, h]
  simp only [ackDraft, run_compose_draft]

/-- A route that is fit to be asked for is written just when the buffer is as large as the parts of
the request.  What is written is one message, and it is read as the record that says the same as the
route; the metrics are in one attribute, in their order, if there are any. -/
theorem addSourceRouteRequest_reads_back (r : SourceRoute) (outputInterface : Option UInt32)
    (c : Connection) (h : r.validate = .ok ()) :
    (r.requestSize outputInterface ≤ c.settings.requestCapacity → ∃ d m,
      c.run (addSourceRouteRequest r outputInterface) = (.ok d, c) ∧
      d.bytes.length = r.requestSize outputInterface ∧
      Message.read d.bytes = ⟨[m], none⟩ ∧
      Route.decode? m.payload = some {
        family := r.destination.address.family
        destination := r.destination.address
        prefixLength := r.destination.length
        gateway := r.gateway
        preferredSource := some r.source
        outputInterface := outputInterface
        table := r.table
        priority := 0
        type := RouteType.unicast.toByte
        protocol := RouteProtocol.static.toByte
        scope := RouteScope.universe.toByte } ∧
      metricsIn m.payload = if r.metrics.hasAny then
        [r.metrics.values.map fun metric => (metric.1, some metric.2)] else []) ∧
    (c.settings.requestCapacity < r.requestSize outputInterface → ∃ needed capacity,
      c.run (addSourceRouteRequest r outputInterface) =
        (.error (.bufferTooSmall needed capacity), c)) := by
  rw [run_addSourceRouteRequest h]
  constructor
  · intro hroom
    have hsmall : MessageHeader.size + (r.payload outputInterface).length < 2 ^ 32 := by
      have hle := r.requestSize_le outputInterface
      rw [length_payload h]
      omega
    have hedited := edited_of_room (r.writes outputInterface true) ((fits_payload_iff h).2 hroom)
    have hlength : ((ackForm .newRoute r.addFlags c).holding
        (r.payload outputInterface)).bytes.length = r.requestSize outputInterface := by
      rw [bytes_holding, List.length_append, MessageHeader.length_bytes, length_payload h]
    exact ⟨_, _, congrArg (·, c) hedited, hlength,
      read_bytes_holding (r.length_payload_mod_four outputInterface) hsmall,
      decode?_payload h outputInterface, r.metricsIn_payload outputInterface⟩
  · intro hfull
    have hfits := mt (fits_payload_iff h).1 (Nat.not_le_of_lt hfull)
    obtain ⟨needed, hedited⟩ := edited_of_full (r.writes outputInterface true) hfits
    exact ⟨needed, _, congrArg (·, c) hedited⟩

/-- A route with all that a route may have, in a table that the header has no room for. -/
def crowdedRoute : SourceRoute where
  destination := ⟨.v6 0x20010db8000000000000000000000000, 32⟩
  source := .v6 0x20010db8000000000000000000000001
  gateway := some (.v6 0xfe800000000000000000000000000001)
  table := 256
  metrics := ⟨some 1400, some 1360⟩

def withBuffer (capacity : Nat) : Connection :=
  { settings := (default : Settings).withRequestCapacity capacity }

theorem addSourceRouteRequest_crowdedRoute :
    crowdedRoute.validate = .ok () ∧
    (∃ d m, ((withBuffer 124).run (addSourceRouteRequest crowdedRoute (some 7))).1 = .ok d ∧
      Message.read d.bytes = ⟨[m], none⟩ ∧
      metricsIn m.payload =
        [[(RouteMetric.mtu, some 1400), (RouteMetric.advertisedMss, some 1360)]]) ∧
    ∃ needed capacity, ((withBuffer 123).run (addSourceRouteRequest crowdedRoute (some 7))).1 =
      .error (.bufferTooSmall needed capacity) := by
  have hvalid : crowdedRoute.validate = .ok () := rfl
  obtain ⟨hroom, -⟩ :=
    addSourceRouteRequest_reads_back crowdedRoute (some 7) (withBuffer 124) hvalid
  obtain ⟨-, hfull⟩ :=
    addSourceRouteRequest_reads_back crowdedRoute (some 7) (withBuffer 123) hvalid
  obtain ⟨d, m, hrun, -, hread, -, hmetrics⟩ := hroom (by decide)
  obtain ⟨needed, capacity, hrefused⟩ := hfull (by decide)
  exact ⟨hvalid, ⟨d, m, congrArg Prod.fst hrun, hread, hmetrics⟩, needed, capacity,
    congrArg Prod.fst hrefused⟩

end RouteControl.Connection
