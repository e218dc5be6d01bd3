import RouteControl.CommandLine.Execute
import RouteControl.Proofs.Connection.Serving

/-!
# Answers to how a destination is reached

The route, the source address and the next hop of an answer come from three searches.  On one table
the first and the last agree, whatever the length asked for, and the source address is that of the
route at full width.  So the three agree where the length is the width; a shorter one may single out
a route that names no source, and still a source is told, as the length does not count in the search
for it.
-/

namespace RouteControl.CommandLine

open Connection Script

variable {α : Type} {c : Connection} {table : List Record} {destination : Address}
  {length : Option UInt8} {wanted : Option Address} {n : Nat} {r : Route}

/-! ## The parts of an answer -/

theorem run_attempt (call : Call α) (c : Connection) :
    c.run (attempt call) = (.ok (c.run call).1.toOption, (c.run call).2) := by
  simp only [run, attempt, EStateM.run]
  cases call c <;> rfl

/-- The source address that an answer tells, if the search for it starts from this connection. -/
def toldSource (destination : Address) (wanted : Option Address) (c : Connection) :
    Option Address :=
  (c.run (sourceAddress destination wanted)).1.toOption

private theorem exists_of_answerRoute_ok {a : RouteAnswer}
    (h : (c.run (answerRoute destination length wanted)).1 = .ok a) :
    ∃ middle, c.run (route ⟨target destination length, wanted⟩) = (.ok a.route, middle) ∧
      a.source = toldSource destination wanted middle ∧
      ((middle.run (sourceAddress destination wanted)).2.run
        (nextHop destination length wanted)).1 = .ok a.nextHop := by
  have hrun : c.run (answerRoute destination length wanted) = (.ok a, _) := Prod.ext h rfl
  obtain ⟨r, middle, hroute, hrest⟩ := exists_of_run_bind_ok hrun
  obtain ⟨source, later, hsource, hrest⟩ := exists_of_run_bind_ok hrest
  obtain ⟨hop, last, hhop, hanswer⟩ := exists_of_run_bind_ok hrest
  rw [run_attempt] at hsource
  obtain ⟨hsource, rfl⟩ := Prod.ext_iff.1 hsource
  cases hsource
  cases hanswer
  exact ⟨middle, hroute, rfl, congrArg Prod.fst hhop⟩

private theorem answerRoute_of_parts {middle : Connection} {hop : Address}
    (hroute : c.run (route ⟨target destination length, wanted⟩) = (.ok r, middle))
    (hhop : ((middle.run (sourceAddress destination wanted)).2.run
      (nextHop destination length wanted)).1 = .ok hop) :
    (c.run (answerRoute destination length wanted)).1 =
      .ok ⟨r, toldSource destination wanted middle, hop⟩ := by
  have hrun : (middle.run (sourceAddress destination wanted)).2.run
      (nextHop destination length wanted) = (.ok hop, _) := Prod.ext hhop rfl
  rw [answerRoute, run_bind, hroute]
  simp only
  rw [run_bind, run_attempt]
  simp only
  rw [run_bind, hrun]
  rfl

theorem toldSource_of_serving (hserving : Serving table (n + 1) c)
    (hr : c.lookedUp table ⟨target destination none, wanted⟩ = .ok r)
    (hend : r.sourcelessGateway = none) :
    toldSource destination wanted c = r.preferredSource := by
  rw [toldSource, sourceAddress_of_serving hserving hr hend]
  cases r.preferredSource <;> rfl

theorem nextHop_of_serving (hserving : Serving table (n + 1) c)
    (hr : c.lookedUp table ⟨target destination length, wanted⟩ = .ok r)
    (hdirect : r.gateway = none) :
    (c.run (nextHop destination length wanted)).1 = .ok destination := by
  obtain ⟨after, hrun, -⟩ := run_route_of_serving hserving ⟨target destination length, wanted⟩
  rw [hr] at hrun
  have hsearch := run_search_of_end (fun here _ => some here.address) destination
    (.here c _) (Nat.zero_le _) hrun hdirect
  rw [nextHop_eq, hsearch]
  rfl

/-! ## Answers on one table -/

/-- The number of requests that an answer may take. -/
def answerRequests : Nat := 1 + 2 * (maxGateways + 1)

private theorem sourcelessGateway_eq_none {s : Address} (h : r.preferredSource = some s) :
    r.sourcelessGateway = none := by
  rw [Route.sourcelessGateway, h]

/-- On one table, the next hop of a route without gateway is the destination, and the source address
is that of the route that is selected at full width, if this route has one or leads nowhere else.
So the answer is consistent where the length asked for is the width. -/
theorem answerRoute_on_table (hserving : Serving table answerRequests c) (destination : Address)
    (length : Option UInt8) (wanted : Option Address) (a : RouteAnswer)
    (h : (c.run (answerRoute destination length wanted)).1 = .ok a) :
    (a.route.gateway = none → a.nextHop = destination) ∧
    (∀ r, (c.run (route ⟨target destination none, wanted⟩)).1 = .ok r →
      (∀ s, r.preferredSource = some s → a.source = some s) ∧
      (r.preferredSource = none → r.gateway = none → a.source = none)) ∧
    (length = none ∨ length = some destination.width →
      (∀ s, a.route.preferredSource = some s → a.source = some s) ∧
      (a.route.preferredSource = none → a.route.gateway = none → a.source = none)) ∧
    (∀ format, (c.run (execute format (.getRoute destination length wanted))).1 =
      .ok (Report.one format a)) := by
  obtain ⟨middle, hroute, hsource, hhop⟩ := exists_of_answerRoute_ok h
  have hfirst : Serving table (maxGateways + 1 + (maxGateways + 1) + 1) c := hserving
  obtain ⟨after, hrun, hmiddle, halike⟩ :=
    run_route_of_serving hfirst ⟨target destination length, wanted⟩
  obtain ⟨hlookedUp, rfl⟩ := Prod.ext_iff.1 (hroute.symm.trans hrun)
  have hfull : ∀ r, (c.run (route ⟨target destination none, wanted⟩)).1 = .ok r →
      r.sourcelessGateway = none → a.source = r.preferredSource := by
    intro r hr hend
    obtain ⟨_, hwide, -⟩ := run_route_of_serving hfirst ⟨target destination none, wanted⟩
    rw [hwide] at hr
    rw [hsource]
    exact toldSource_of_serving hmiddle ((halike.lookedUp table _).trans hr) hend
  have hclauses : ∀ r, (c.run (route ⟨target destination none, wanted⟩)).1 = .ok r →
      (∀ s, r.preferredSource = some s → a.source = some s) ∧
      (r.preferredSource = none → r.gateway = none → a.source = none) := by
    intro r hr
    constructor
    · intro s hs
      rw [hfull r hr (sourcelessGateway_eq_none hs), hs]
    · intro hnone hgateway
      have hend : r.sourcelessGateway = none := by
        rw [Route.sourcelessGateway, hnone, hgateway]
      rw [hfull r hr hend, hnone]
  refine ⟨?_, hclauses, ?_, ?_⟩
  · intro hdirect
    rw [sourceAddress_eq] at hhop
    obtain ⟨hlast, hlater⟩ := hmiddle.search Route.sourcelessGateway (fun _ r => r.preferredSource)
      wanted (target destination none) destination
    have hlookedUp' := ((halike.trans hlater).lookedUp table _).trans hlookedUp.symm
    rw [nextHop_of_serving hlast hlookedUp' hdirect] at hhop
    exact (Except.ok.inj hhop).symm
  · intro hwidth
    have hquery : target destination length = target destination none := by
      rcases hwidth with rfl | rfl <;> rfl
    rw [hquery] at hroute
    exact hclauses a.route (congrArg Prod.fst hroute)
  · intro format
    have hanswer : c.run (answerRoute destination length wanted) = (.ok a, _) := Prod.ext h rfl
    rw [execute, run_bind, hanswer]
    rfl

/-! ## A source for one host of a network -/

def host : Address := .v4 0x0a000001

def hostSource : Address := .v4 0x0a000009

/-- The route to a network names no source, the route to one host in it does. -/
def mixedTable : List Record :=
  [.route (.v4 0x0a000000) 24 none none, .route host 32 (some hostSource) none]

def networkRoute : Route where
  family := .inet
  destination := .v4 0x0a000000
  prefixLength := 24
  gateway := none
  preferredSource := none
  outputInterface := none
  table := Table.main
  priority := 0
  type := RouteType.unicast.toByte
  protocol := 0
  scope := RouteScope.link.toByte

def hostRoute : Route :=
  { networkRoute with destination := host, prefixLength := 32, preferredSource := some hostSource }

def mixedConnection : Connection :=
  { kernel := { replies :=
      (List.replicate answerRequests [.records 0 (mixedTable ++ [.done])]).flatten } }

private theorem routesOf_mixedTable : routesOf mixedTable = [networkRoute, hostRoute] := by
  have hhost : routesOf [.route host 32 (some hostSource) none] = [hostRoute] :=
    routesOf_cons (by rintro _ ⟨⟩; rfl) (by nofun) []
  have hall : routesOf mixedTable = networkRoute :: _ := routesOf_cons (by nofun) (by nofun) _
  rw [hall, hhost]

private theorem serving_mixedConnection : Serving mixedTable answerRequests mixedConnection where
  ready := rfl
  replies := by
    have hlisted : ∀ r ∈ mixedTable, r.IsListed := by
      simp only [mixedTable, List.forall_mem_cons]
      exact ⟨Record.isListed_route .., Record.isListed_route .., nofun⟩
    exact ⟨_, _, [], serves_records hlisted, Nat.le_refl _, (List.append_nil _).symm⟩

private theorem lookedUp_network :
    mixedConnection.lookedUp mixedTable ⟨target host (some 24), none⟩ = .ok networkRoute :=
  lookedUp_of_room (by decide) (by rw [routesOf_mixedTable]; decide)

private theorem lookedUp_host :
    mixedConnection.lookedUp mixedTable ⟨target host none, none⟩ = .ok hostRoute :=
  lookedUp_of_room (by decide) (by rw [routesOf_mixedTable]; decide)

private theorem answerRoute_mixedTable_ok {length : Option UInt8} {r : Route}
    (hr : mixedConnection.lookedUp mixedTable ⟨target host length, none⟩ = .ok r)
    (hdirect : r.gateway = none) :
    (mixedConnection.run (answerRoute host length none)).1 = .ok ⟨r, some hostSource, host⟩ := by
  have hserving : Serving mixedTable (maxGateways + 1 + (maxGateways + 1) + 1) mixedConnection :=
    serving_mixedConnection
  obtain ⟨middle, hroute, hmiddle, halike⟩ :=
    run_route_of_serving hserving ⟨target host length, none⟩
  obtain ⟨hlast, hlater⟩ := hmiddle.search Route.sourcelessGateway (fun _ r => r.preferredSource)
    none (target host none) host
  have hhop := nextHop_of_serving hlast (((halike.trans hlater).lookedUp _ _).trans hr) hdirect
  have hsource := toldSource_of_serving hmiddle ((halike.lookedUp _ _).trans lookedUp_host) rfl
  rw [hr] at hroute
  rw [← sourceAddress_eq] at hhop
  rw [answerRoute_of_parts hroute hhop, hsource]
  rfl

private theorem wayText_networkRoute : networkRoute.wayText = "10.0.0.0/24" := by decide

private theorem reportedNetwork :
    Report.one .text (RouteAnswer.mk networkRoute (some hostSource) host) =
    "10.0.0.0/24 src 10.0.0.9 table 254 nexthop 10.0.0.1\n" := by
  have hsource : hostSource.text = "10.0.0.9" := by decide
  have hhost : host.text = "10.0.0.1" := by decide
  show networkRoute.wayText ++ detail "src" (some hostSource.text) ++ " table 254" ++
    detail "metric" none ++ s!" nexthop {host.text}" ++ "\n" = _
  rw [wayText_networkRoute, hsource, hhost]
  rfl

/-- Asked for with the length of the network, the host is answered for by the route to the network,
and with the source that only the route to the host names. -/
theorem answerRoute_mixedTable :
    Serving mixedTable answerRequests mixedConnection ∧ ∃ a,
      (mixedConnection.run (answerRoute host (some 24) none)).1 = .ok a ∧
      a.route.preferredSource = none ∧ a.route.gateway = none ∧ a.source = some hostSource ∧
      Report.one .text a = "10.0.0.0/24 src 10.0.0.9 table 254 nexthop 10.0.0.1\n" :=
  ⟨serving_mixedConnection, _, answerRoute_mixedTable_ok lookedUp_network rfl, rfl, rfl, rfl,
    reportedNetwork⟩

theorem answerRoute_mixedTable_host :
    Serving mixedTable answerRequests mixedConnection ∧ ∃ a,
      (mixedConnection.run (answerRoute host none none)).1 = .ok a ∧
      a.route = hostRoute ∧ a.source = some hostSource ∧ a.nextHop = host := by
  have hanswer := answerRoute_mixedTable_ok lookedUp_host rfl
  obtain ⟨hhop, -, hsource, -⟩ :=
    answerRoute_on_table serving_mixedConnection host none none _ hanswer
  exact ⟨serving_mixedConnection, _, hanswer, rfl, (hsource (.inl rfl)).1 hostSource rfl, hhop rfl⟩

end RouteControl.CommandLine
