import RouteControl.Proofs.Connection.Coverage
import RouteControl.Proofs.Record.Fields

/-!
# Families on the way

The addresses in a record of a route are of its family, unless this is no family in particular,
which admits both versions (`Route.family_of_decode`).  A record without a destination leads
everywhere, and where its family has no addresses of its own it counts as one of version 4.  So a
route that is selected is of the family of the destination, of no family in particular, or one of
those, which name neither a gateway nor a source.  A search stays within the family of its
destination unless one of its look-ups comes to a route of no family in particular
(`Legs.family_eq`).
-/

namespace RouteControl

open Attribute

/-! ## Records -/

namespace Route

variable {payload : Bytes} {payloads : List Bytes} {query : Prefix} {wanted : Option Address}
  {r : Route} {a : Address}

theorem family_of_decode (h : decode? payload = some r)
    (ha : r.gateway = some a ∨ r.preferredSource = some a) :
    r.family = a.family ∨ r.family = .unspecified := by
  obtain ⟨header, rest, -, rfl⟩ := decode?_eq_some_iff.1 h
  have hadmitted : ∀ kind,
      lastValue? kind (Address.ofOctetsIn? header.family) (walk rest) = some a →
      header.family = a.family ∨ header.family = .unspecified := by
    intro kind hvalue
    obtain ⟨b, -, -, hoctets⟩ := exists_of_lastValue?_eq_some hvalue
    exact (Address.ofOctetsIn?_eq_some_iff.1 hoctets).2
  exact ha.elim (hadmitted _) (hadmitted _)

private theorem unspecifiedIn_family (family : Family) :
    family = (Address.unspecifiedIn family).family ∨
      (Address.unspecifiedIn family = .v4 0 ∧ family ≠ .inet6) := by
  by_cases hsix : family = .inet6
  · exact .inl (by rw [Address.unspecifiedIn, if_pos hsix, hsix]; rfl)
  · exact .inr ⟨if_neg hsix, hsix⟩

theorem destination_of_decode (h : decode? payload = some r) :
    r.family = r.destination.family ∨ r.family = .unspecified ∨
      (r.destination = .v4 0 ∧ r.family ≠ .inet6) := by
  obtain ⟨header, rest, -, rfl⟩ := decode?_eq_some_iff.1 h
  cases hvalue : lastValue? RouteAttribute.destination (Address.ofOctetsIn? header.family)
      (walk rest) with
  | none =>
      have hdestination : (ofAttributes header (walk rest)).destination =
          .unspecifiedIn header.family := by
        simp only [ofAttributes, hvalue, Option.getD_none]
      rw [hdestination]
      exact (unspecifiedIn_family header.family).imp_right .inr
  | some a =>
      have hdestination : (ofAttributes header (walk rest)).destination = a := by
        simp only [ofAttributes, hvalue, Option.getD_some]
      rw [hdestination]
      obtain ⟨b, -, -, hoctets⟩ := exists_of_lastValue?_eq_some hvalue
      exact (Address.ofOctetsIn?_eq_some_iff.1 hoctets).2.imp_right .inl

/-! ## Selections -/

theorem decode?_of_select (h : select query wanted (payloads.filterMap decode?) = some r) :
    ∃ payload ∈ payloads, decode? payload = some r :=
  List.mem_filterMap.1 (mem_of_select h)

theorem destination_family_of_select
    (h : select query wanted (payloads.filterMap decode?) = some r) :
    r.destination.family = query.address.family := by
  obtain ⟨-, -, hcovers⟩ := of_decide_eq_true (eligible_of_select h)
  exact Prefix.family_eq_of_contains hcovers

theorem address_family_of_select
    (h : select query wanted (payloads.filterMap decode?) = some r)
    (ha : r.gateway = some a ∨ r.preferredSource = some a) :
    a.family = query.address.family ∨ r.family = .unspecified := by
  obtain ⟨payload, -, hdecode⟩ := decode?_of_select h
  have hdestination := destination_family_of_select h
  rcases family_of_decode hdecode ha with hsame | hnone
  · rcases destination_of_decode hdecode with hown | hnone | ⟨hzero, hsix⟩
    · exact .inl (hsame.symm.trans (hown.trans hdestination))
    · exact .inr hnone
    · rw [hzero] at hdestination
      cases a with
      | v4 bits => exact .inl hdestination
      | v6 bits => exact absurd hsame hsix
  · exact .inr hnone

theorem family_of_select (h : select query wanted (payloads.filterMap decode?) = some r) :
    r.family = query.address.family ∨ r.family = .unspecified ∨
      (query.address.family = .inet ∧ r.family ≠ .inet6 ∧ r.destination = .v4 0 ∧
        r.gateway = none ∧ r.preferredSource = none) := by
  obtain ⟨payload, -, hdecode⟩ := decode?_of_select h
  have hdestination := destination_family_of_select h
  rcases destination_of_decode hdecode with hown | hnone | ⟨hzero, hsix⟩
  · exact .inl (hown.trans hdestination)
  · exact .inr (.inl hnone)
  · rw [hzero] at hdestination
    by_cases hfour : r.family = .inet
    · exact .inl (hfour.trans hdestination)
    by_cases hnone : r.family = .unspecified
    · exact .inr (.inl hnone)
    have hno : ∀ a, ¬(r.gateway = some a ∨ r.preferredSource = some a) := by
      intro a ha
      cases a with
      | v4 bits => exact (family_of_decode hdecode ha).elim hfour hnone
      | v6 bits => exact (family_of_decode hdecode ha).elim hsix hnone
    refine .inr (.inr ⟨hdestination.symm, hsix, hzero, ?_, ?_⟩)
    · exact Option.eq_none_iff_forall_ne_some.2 fun a ha => hno a (.inl ha)
    · exact Option.eq_none_iff_forall_ne_some.2 fun a ha => hno a (.inr ha)

end Route

/-! ## Searches -/

namespace Connection

open Script

/-- One of so many look-ups along the gateways comes to a route of no family in particular, and what
leads on from it, or answers, is an address of another family than was looked up. -/
def Crosses (onward answer : Route → Option Address) (wanted : Option Address) (budget : Nat)
    (c : Connection) (first : Prefix) : Prop :=
  ∃ gateways last there r a, gateways.length < budget ∧
    Legs onward wanted c first gateways last there ∧
    (last.run (route ⟨there, wanted⟩)).1 = .ok r ∧ r.family = .unspecified ∧
    (onward r = some a ∨ answer r = some a) ∧ a.family ≠ there.address.family

variable {c last : Connection} {wanted : Option Address} {onward answer : Route → Option Address}
  {here there : Prefix} {gateways : List Address} {budget more : Nat} {r : Route} {a : Address}

theorem Crosses.mono (h : Crosses onward answer wanted budget c here) (hle : budget ≤ more) :
    Crosses onward answer wanted more c here := by
  obtain ⟨gateways, last, there, r, a, hroom, hrest⟩ := h
  exact ⟨gateways, last, there, r, a, Nat.lt_of_lt_of_le hroom hle, hrest⟩

theorem Legs.address_family_eq (h : Legs onward wanted c here gateways last there)
    (hr : (last.run (route ⟨there, wanted⟩)).1 = .ok r)
    (ha : r.gateway = some a ∨ r.preferredSource = some a)
    (htold : onward r = some a ∨ answer r = some a) :
    a.family = there.address.family ∨
      Crosses onward answer wanted (gateways.length + 1) c here := by
  obtain ⟨payloads, hselect⟩ := exists_payloads_of_route hr
  by_cases hsame : a.family = there.address.family
  · exact .inl hsame
  · have hnone := (Route.address_family_of_select hselect ha).resolve_left hsame
    exact .inr ⟨gateways, last, there, r, a, Nat.lt_succ_self _, h, hr, hnone, htold, hsame⟩

theorem Legs.family_eq (h : Legs onward wanted c here gateways last there)
    (honward : ∀ r a, onward r = some a → r.gateway = some a) :
    there.address.family = here.address.family ∨
      Crosses onward answer wanted gateways.length c here := by
  induction h with
  | here => exact .inl rfl
  | @leg c middle last here there r gateway gateways hrun hleads hrest ih =>
      have hr : (c.run (route ⟨here, wanted⟩)).1 = .ok r := congrArg Prod.fst hrun
      rcases (Legs.here c here).address_family_eq hr (.inl (honward r gateway hleads))
        (.inl hleads) with hsame | hcrosses
      · rcases ih with hrow | ⟨passed, last', there', r', a, hroom, hlegs, hrest'⟩
        · exact .inl (hrow.trans hsame)
        · exact .inr ⟨gateway :: passed, last', there', r', a, Nat.succ_lt_succ hroom,
            .leg hrun hleads hlegs, hrest'⟩
      · exact .inr (hcrosses.mono (Nat.succ_le_succ (Nat.zero_le _)))

theorem family_of_nextHop {destination hop : Address} {length : Option UInt8}
    (h : (c.run (nextHop destination length wanted)).1 = .ok hop) :
    hop.family = destination.family ∨
      Crosses Route.gateway (fun _ => none) wanted maxGateways c (target destination length) := by
  rw [nextHop_eq, search_eq_ok_iff] at h
  obtain ⟨gateways, last, there, r, hroom, hlegs, -, -, hhop⟩ := h
  obtain rfl := Option.some.inj hhop
  exact (hlegs.family_eq fun _ _ => id).imp_right fun hcrosses => hcrosses.mono hroom

theorem family_of_sourceAddress {destination source : Address}
    (h : (c.run (sourceAddress destination wanted)).1 = .ok source) :
    source.family = destination.family ∨
      Crosses Route.sourcelessGateway Route.preferredSource wanted (maxGateways + 1) c
        (target destination none) := by
  rw [sourceAddress_eq, search_eq_ok_iff] at h
  obtain ⟨gateways, last, there, r, hroom, hlegs, hr, -, hsource⟩ := h
  have hgateway : ∀ (r : Route) a, r.sourcelessGateway = some a → r.gateway = some a :=
    fun _ _ hleads => (Route.sourcelessGateway_eq_some_iff.1 hleads).2
  rcases hlegs.family_eq hgateway with hrow | hcrosses
  · rcases hlegs.address_family_eq hr (.inr hsource) (.inr hsource) with hlast | hcrosses
    · exact .inl (hlast.trans hrow)
    · exact .inr (hcrosses.mono (Nat.succ_le_succ hroom))
  · exact .inr (hcrosses.mono (Nat.le_succ_of_le hroom))

/-- A route that is selected from records leads to a network of the destination's family.  It is of
this family itself, of no family in particular, or, for a destination of version 4, of a family that
has no addresses, and then it names none.  The addresses that it names are of the destination's
family unless it is of no family in particular.  So next hops and source addresses are of the
family that was asked for, unless a look-up comes to a route of no family in particular whose
gateway, or for a source also its source address, is of another family. -/
theorem selected_route_families :
    (∀ (payloads : List Bytes) query wanted r,
      Route.select query wanted (payloads.filterMap Route.decode?) = some r →
      r.destination.family = query.address.family ∧
      (r.family = query.address.family ∨ r.family = .unspecified ∨
        (query.address.family = .inet ∧ r.family ≠ .inet6 ∧ r.destination = .v4 0 ∧
          r.gateway = none ∧ r.preferredSource = none)) ∧
      ∀ a, r.gateway = some a ∨ r.preferredSource = some a →
        a.family = query.address.family ∨ r.family = .unspecified) ∧
    (∀ (c : Connection) destination length wanted hop,
      (c.run (nextHop destination length wanted)).1 = .ok hop →
      hop.family = destination.family ∨
        Crosses Route.gateway (fun _ => none) wanted 2 c (target destination length)) ∧
    ∀ (c : Connection) destination wanted source,
      (c.run (sourceAddress destination wanted)).1 = .ok source →
      source.family = destination.family ∨
        Crosses Route.sourcelessGateway Route.preferredSource wanted 3 c
          (target destination none) := by
  refine ⟨?_, ?_, ?_⟩
  · intro payloads query wanted r hselect
    exact ⟨Route.destination_family_of_select hselect, Route.family_of_select hselect,
      fun a ha => Route.address_family_of_select hselect ha⟩
  · intro c destination length wanted hop h
    exact family_of_nextHop h
  · intro c destination wanted source h
    exact family_of_sourceAddress h

/-- The route to a single host with a source address of its own. -/
def hostTable : List Record := [.route (.v4 0x0a000001) 32 (some (.v4 0x0a000009)) none]

def sourcedRoute : Route := Record.scriptedRoute (.v4 0x0a000001) 32 (some (.v4 0x0a000009)) none

private theorem sourceAddress_of_servingOnce {table : List Record}
    (hlisted : ∀ r ∈ table, r.IsListed) {destination source : Address}
    (hroom : (Draft.Form.ofCapacity .getRoute (.request ||| .dump) Draft.defaultCapacity).Fits
      ((RouteQuery.mk (target destination none) none).header.payload
        (RouteQuery.mk (target destination none) none).attributes))
    (hselect : Route.select (target destination none) none (routesOf table) = some r)
    (hsource : r.preferredSource = some source) :
    ((servingOnce table).run (sourceAddress destination none)).1 = .ok source := by
  have hlookedUp : (servingOnce table).lookedUp table ⟨target destination none, none⟩ = .ok r :=
    lookedUp_of_room hroom hselect
  have hend : r.sourcelessGateway = none := by rw [Route.sourcelessGateway, hsource]
  rw [sourceAddress_of_serving (serving_servingOnce hlisted) hlookedUp hend, hsource]
  rfl

private theorem routesOf_hostTable : routesOf hostTable = [sourcedRoute] :=
  routesOf_cons (by rintro _ ⟨⟩; rfl) (by nofun) []

theorem selected_route_families_host :
    Route.select (target (.v4 0x0a000001) none) none (routesOf hostTable) = some sourcedRoute ∧
      sourcedRoute.destination.family = .inet ∧
      ((servingOnce hostTable).run (sourceAddress (.v4 0x0a000001) none)).1 =
        .ok (.v4 0x0a000009) ∧
      ((Address.v4 0x0a000009).family = .inet ∨
        Crosses Route.sourcelessGateway Route.preferredSource none 3 (servingOnce hostTable)
          (target (.v4 0x0a000001) none)) := by
  have hselect : Route.select (target (.v4 0x0a000001) none) none (routesOf hostTable) =
      some sourcedRoute := by
    rw [routesOf_hostTable]
    decide
  have hlisted : ∀ r ∈ hostTable, r.IsListed :=
    List.forall_mem_singleton.2 (Record.isListed_route ..)
  have hsource : ((servingOnce hostTable).run (sourceAddress (.v4 0x0a000001) none)).1 =
      .ok (.v4 0x0a000009) := sourceAddress_of_servingOnce hlisted (by decide) hselect rfl
  obtain ⟨hselected, -, hfamily⟩ := selected_route_families
  exact ⟨hselect, (hselected _ _ _ _ hselect).1, hsource, hfamily _ _ _ _ hsource⟩

/-! ## Routes of other families -/

/-- A route that leads everywhere, as a record without a destination tells it. -/
def everywhere (family : Family) (source : Option Address) : Route where
  family := family
  destination := .v4 0
  prefixLength := 0
  gateway := none
  preferredSource := source
  outputInterface := none
  table := 0
  priority := 0
  type := RouteType.unicast.toByte
  protocol := 0
  scope := 0

def everywhereRecord (family : Family) (source : Option Address) : Record where
  type := .newRoute
  flags := .multi
  payload := RouteHeader.payload { family, type := RouteType.unicast.toByte }
    (ofAddress RouteAttribute.preferredSource source)

private theorem decode?_everywhereRecord (family : Family) (source : Option Address)
    (hfamily : family ≠ .inet6)
    (hsource : ∀ a ∈ source, Address.ofOctetsIn? family a.octets = some a) :
    Route.decode? (everywhereRecord family source).payload = some (everywhere family source) := by
  have hzero : Address.unspecifiedIn family = .v4 0 := if_neg hfamily
  rw [everywhereRecord, Route.decode?_payload (regular_ofAddress _ _)]
  cases source with
  | none => simp [ofAddress, Route.ofHeader, everywhere, hzero]
  | some a =>
      simp +decide [ofAddress, Route.ofHeader, everywhere, hzero, Route.absorb, kind_mk,
        hsource a rfl]

/-- A route of no family in particular is selected for a destination of version 4, and its source
address, of version 6, is told; and so is a route of a family that has no addresses. -/
theorem stray_routes_selected :
    Route.select (target (.v4 0x0a000001) none) none
        ([(everywhereRecord .unspecified (some (.v6 1))).payload].filterMap Route.decode?) =
      some (everywhere .unspecified (some (.v6 1))) ∧
    ((servingOnce [everywhereRecord .unspecified (some (.v6 1))]).run
        (sourceAddress (.v4 0x0a000001) none)).1 = .ok (.v6 1) ∧
    (Address.v6 1).family ≠ (Address.v4 0x0a000001).family ∧
    Route.select (target (.v4 0x0a000001) none) none
        ([(everywhereRecord 7 none).payload].filterMap Route.decode?) =
      some (everywhere 7 none) ∧
    (everywhere .unspecified (some (.v6 1))).family ≠ (Address.v4 0x0a000001).family ∧
    (everywhere 7 none).family ≠ (Address.v4 0x0a000001).family := by
  have hstray := decode?_everywhereRecord .unspecified (some (.v6 1)) (by decide)
    (by rintro _ ⟨⟩; decide)
  have hother := decode?_everywhereRecord 7 none (by decide) nofun
  have hselect : Route.select (target (.v4 0x0a000001) none) none
      ([(everywhereRecord .unspecified (some (.v6 1))).payload].filterMap Route.decode?) =
      some (everywhere .unspecified (some (.v6 1))) := by
    rw [List.filterMap_cons_some hstray, List.filterMap_nil]
    decide
  have hlisted : ∀ r ∈ [everywhereRecord .unspecified (some (.v6 1))], r.IsListed :=
    List.forall_mem_singleton.2 ⟨rfl, rfl, rfl, by decide⟩
  refine ⟨hselect, sourceAddress_of_servingOnce hlisted (by decide) hselect rfl, by decide, ?_,
    by decide, by decide⟩
  rw [List.filterMap_cons_some hother, List.filterMap_nil]
  decide

end Connection

end RouteControl
