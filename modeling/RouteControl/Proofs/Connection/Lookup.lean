import RouteControl.Connection.Lookup
import RouteControl.Proofs.Connection.Preparation
import RouteControl.Proofs.Connection.Retry
import RouteControl.Proofs.Request.RouteMessage

/-!
# Single look-ups

A look-up asks for routes and chooses one of them.  What it does to the connection is what its
request does (`route_connection`), and what it sends is a `Round`: one message with the question, as
often as it is transmitted.
-/

namespace RouteControl.Connection

open Draft

variable {α : Type} {c : Connection} {d : Draft} {query : RouteQuery}

def routesRequest (query : RouteQuery) (c : Connection) : Except Error Draft :=
  (new .getRoute (.request ||| .dump) c.settings.requestCapacity).edited query.write

theorem wellFormed_of_routesRequest (h : c.routesRequest query = .ok d) : d.WellFormed :=
  wellFormed_of_edited query.writes h

theorem run_compose_routes (query : RouteQuery) (c : Connection) :
    c.run (compose (dumpDraft .getRoute) query.write) = (c.routesRequest query, c) := by
  rw [dumpDraft, run_compose_draft, routesRequest]

theorem run_queryRoutes_of_unwritten {e : Error} (h : c.routesRequest query = .error e) :
    c.run (queryRoutes query) = (.error e, c) := by
  rw [queryRoutes, run_bind, run_compose_routes, h]

theorem run_queryRoutes_of_written (h : c.routesRequest query = .ok d) :
    c.run (queryRoutes query) = c.run (entries d .newRoute Route.decode?) := by
  rw [queryRoutes, run_bind, run_compose_routes, h]

theorem entries_connection (d : Draft) (expected : MessageKind) (decode? : Bytes → Option α)
    (c : Connection) : (c.run (entries d expected decode?)).2 = (c.run (request d)).2 := by
  rw [entries, run_bind]
  rcases c.run (request d) with ⟨_ | response, last⟩
  · rfl
  · simp only [run_bind, run_ofExcept]
    cases response.dumpPayloads expected <;> rfl

theorem route_connection (query : RouteQuery) (c : Connection) :
    (c.run (route query)).2 = (c.run (queryRoutes query)).2 := by
  rw [route, run_bind]
  rcases c.run (queryRoutes query) with ⟨_ | routes, last⟩
  · rfl
  · simp only
    cases Route.select query.destination query.wanted routes <;> rfl

/-- A look-up comes to a route that is selected from those of some payloads that decode. -/
theorem exists_payloads_of_route {r : Route} (h : (c.run (route query)).1 = .ok r) :
    ∃ payloads : List Bytes, Route.select query.destination query.wanted
      (payloads.filterMap Route.decode?) = some r := by
  have hrun : c.run (route query) = (.ok r, _) := Prod.ext h rfl
  obtain ⟨routes, middle, hroutes, hselect⟩ := exists_of_run_bind_ok hrun
  obtain ⟨d, _, -, hentries⟩ := exists_of_run_bind_ok hroutes
  obtain ⟨response, _, -, hresponse⟩ := exists_of_run_bind_ok hentries
  obtain ⟨payloads, _, -, hpayloads⟩ := exists_of_run_bind_ok hresponse
  obtain rfl : payloads.filterMap Route.decode? = routes :=
    Except.ok.inj (congrArg Prod.fst hpayloads)
  refine ⟨payloads, ?_⟩
  cases hbest : Route.select query.destination query.wanted
      (payloads.filterMap Route.decode?) with
  | none =>
      rw [hbest] at hselect
      cases hselect
  | some best =>
      rw [hbest] at hselect
      exact congrArg some (Except.ok.inj (congrArg Prod.fst hselect))

/-! ## What a look-up sends -/

def CanAsk (query : RouteQuery) (c : Connection) : Prop :=
  c.kernel.sendFailure = none ∧ ∃ d, c.routesRequest query = .ok d

/-- The messages that one look-up sends: a request for all routes with the question, at most as
often as the settings allow, and at least once if the question can be asked. -/
structure Round (c : Connection) (query : RouteQuery) (messages : List Bytes) : Prop where
  repeated : ∃ message, messages = List.replicate messages.length message
  asks : ∀ message ∈ messages,
    ReadsAs message .getRoute (.request ||| .dump) query.header query.attributes
  length_le : messages.length ≤ c.settings.transmissions
  sent_of_canAsk : c.CanAsk query → messages ≠ []

/-- The connections allow the same: they have the same settings, and the kernel takes messages of
both or of neither. -/
structure Alike (c c' : Connection) : Prop where
  settings_eq : c'.settings = c.settings
  sendFailure_eq : c'.kernel.sendFailure = c.kernel.sendFailure

theorem Alike.refl (c : Connection) : c.Alike c := ⟨rfl, rfl⟩

theorem Alike.trans {first second third : Connection} (h : first.Alike second)
    (hnext : second.Alike third) : first.Alike third :=
  ⟨hnext.settings_eq.trans h.settings_eq, hnext.sendFailure_eq.trans h.sendFailure_eq⟩

theorem Alike.round {c c' : Connection} (h : c.Alike c') {messages : List Bytes}
    (hround : c'.Round query messages) : c.Round query messages where
  repeated := hround.repeated
  asks := hround.asks
  length_le := h.settings_eq ▸ hround.length_le
  sent_of_canAsk := by
    rintro ⟨hready, d, hd⟩
    refine hround.sent_of_canAsk ⟨h.sendFailure_eq.trans hready, d, ?_⟩
    rw [routesRequest, h.settings_eq]
    exact hd

/-- A look-up sends its round and leaves the connection as capable as before. -/
theorem exists_round (query : RouteQuery) (c : Connection) :
    ∃ messages, (c.run (route query)).2.kernel.sent = c.kernel.sent ++ messages ∧
      c.Round query messages ∧ c.Alike (c.run (route query)).2 := by
  rw [route_connection]
  rcases edited_readsAs query.writes query.regular_attributes
    (Nat.le_trans query.length_attributes_le (by decide)) .getRoute
    (.request ||| .dump) c.settings.requestCapacity with ⟨_, _, herror⟩ | ⟨d, hok, hd, hreads⟩
  · have hunwritten : c.routesRequest query = _ := herror
    rw [run_queryRoutes_of_unwritten hunwritten]
    refine ⟨[], (List.append_nil _).symm, ⟨⟨[], rfl⟩, nofun, Nat.zero_le _, ?_⟩, .refl c⟩
    rintro ⟨-, d, hd⟩
    rw [hunwritten] at hd
    cases hd
  · have hwritten : c.routesRequest query = .ok d := hok
    obtain ⟨attempts, hle, hsent, hpos, hsettings, hfailure⟩ := exists_transmissions hd c
    rw [run_queryRoutes_of_written hwritten, entries_connection]
    refine ⟨_, hsent, ⟨⟨_, by rw [List.length_replicate]⟩, ?_, ?_, ?_⟩, hsettings, hfailure⟩
    · intro message hmessage
      rw [List.eq_of_mem_replicate hmessage]
      exact hreads _ _
    · rw [List.length_replicate]
      exact hle
    · rintro ⟨hready, -⟩
      have hattempts := hpos hready
      rw [Ne, List.replicate_eq_nil_iff]
      omega

end RouteControl.Connection
