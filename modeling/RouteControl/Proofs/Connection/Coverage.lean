import RouteControl.Proofs.Connection.Serving
import RouteControl.Proofs.Prefix
import RouteControl.Proofs.Selection

/-!
# Networks that are served

A route is selected for its length and for one address only: it is no more specific than asked for
and covers the address asked for.  Still it covers all addresses of the network, as they have in
common with that address what the route asks for (`Route.covers_of_select`).
-/

namespace RouteControl

namespace Route

variable {query : Prefix} {wanted : Option Address} {routes : List Route} {r : Route} {a : Address}

theorem eligible_of_select (h : select query wanted routes = some r) : r.isEligible query := by
  obtain ⟨_, hbest⟩ := select_eq_some_iff.1 h
  exact hbest.eligible

theorem mem_of_select (h : select query wanted routes = some r) : r ∈ routes := by
  obtain ⟨_, hbest⟩ := select_eq_some_iff.1 h
  exact List.mem_of_getElem? hbest.place

theorem covers_of_eligible (h : r.isEligible query) (ha : query.contains a) : r.covers a := by
  obtain ⟨-, hlength, hcovers⟩ := of_decide_eq_true h
  have hnear : (Prefix.mk query.address r.prefixLength).contains a :=
    Prefix.contains_of_le hlength ha
  exact Prefix.contains_trans hcovers hnear

theorem covers_of_select (h : select query wanted routes = some r) (ha : query.contains a) :
    r.covers a :=
  covers_of_eligible (eligible_of_select h) ha

end Route

namespace Connection

open Script

/-- The route that is selected for a network covers all addresses of it.  So does the route that a
look-up comes to, for the length asked for or else for all bits of the destination, whatever the
kernel answers. -/
theorem selected_route_serves_network :
    (∀ query wanted routes r, Route.select query wanted routes = some r →
      ∀ a, query.contains a → r.covers a) ∧
    ∀ (c : Connection) destination (length : Option UInt8) wanted r,
      (c.run (route ⟨target destination length, wanted⟩)).1 = .ok r →
      ∀ a, (Prefix.mk destination (length.getD destination.width)).contains a → r.covers a := by
  constructor
  · intro query wanted routes r hselect a ha
    exact Route.covers_of_select hselect ha
  · intro c destination length wanted r hrun a ha
    obtain ⟨payloads, hselect⟩ := exists_payloads_of_route hrun
    exact Route.covers_of_select hselect ha

def wideTable : List Record := [.route (.v4 0x0a000000) 8 none none]

def wideRoute : Route := Record.scriptedRoute (.v4 0x0a000000) 8 none none

private theorem route_wideTable :
    ((servingOnce wideTable).run (route ⟨target (.v4 0x0a010200) (some 16), none⟩)).1 =
      .ok wideRoute := by
  have hlisted : ∀ r ∈ wideTable, r.IsListed :=
    List.forall_mem_singleton.2 (Record.isListed_route ..)
  have hdecode : routesOf wideTable = [wideRoute] := routesOf_cons (by nofun) (by nofun) []
  have hlookedUp : (servingOnce wideTable).lookedUp wideTable
      ⟨target (.v4 0x0a010200) (some 16), none⟩ = .ok wideRoute :=
    lookedUp_of_room (by decide) (by rw [hdecode]; decide)
  obtain ⟨_, hrun, -⟩ :=
    run_route_of_serving (serving_servingOnce hlisted)
      ⟨target (.v4 0x0a010200) (some 16), none⟩
  rw [hrun, hlookedUp]

/-- An address of 10.1.0.0/16 other than the one that was looked up. -/
theorem selected_route_serves_network_wide :
    ((servingOnce wideTable).run (route ⟨target (.v4 0x0a010200) (some 16), none⟩)).1 =
        .ok wideRoute ∧
      (Prefix.mk (.v4 0x0a010200) 16).contains (.v4 0x0a01ff07) ∧
      wideRoute.covers (.v4 0x0a01ff07) := by
  have hinside : (Prefix.mk (.v4 0x0a010200) 16).contains (.v4 0x0a01ff07) := by decide
  obtain ⟨-, hlookedUp⟩ := selected_route_serves_network
  exact ⟨route_wideTable, hinside,
    hlookedUp _ _ (some 16) none _ route_wideTable _ hinside⟩

end Connection

end RouteControl
