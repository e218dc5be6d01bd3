import Mathlib.Data.List.Forall2
import RouteControl.Proofs.Connection.Lookup

/-!
# Following gateways

The next hop and the source address are found by look-ups, each of which either ends the search or
leads on to a gateway (`follow`).  A row of look-ups that lead on (`Legs`) can be cut off a search
(`run_follow_of_legs`), and every search is such a row with one last look-up behind it
(`exists_legs`); so how it ends is told by the row and the last look-up.
-/

namespace RouteControl

def Route.sourcelessGateway (r : Route) : Option Address :=
  match r.preferredSource with
  | some _ => none
  | none => r.gateway

theorem Route.sourcelessGateway_eq_some_iff {r : Route} {gateway : Address} :
    r.sourcelessGateway = some gateway ↔ r.preferredSource = none ∧ r.gateway = some gateway := by
  simp only [sourcelessGateway]
  cases r.preferredSource <;> simp

namespace Connection

/-! ## Both searches are one -/

/-- Follows the gateways that the routes lead on to, with so many look-ups, to what a route that
leads nowhere comes to. -/
def follow (onward : Route → Option Address) (found : Prefix → Route → Option Address)
    (wanted : Option Address) : Nat → Prefix → Call (Option Address)
  | 0, _ => return none
  | left + 1, here => do
    let r ← route ⟨here, wanted⟩
    match onward r with
    | some gateway => follow onward found wanted left (target gateway none)
    | none => return found here r

/-- A search for a destination that starts at a network. -/
def search (onward : Route → Option Address) (found : Prefix → Route → Option Address)
    (wanted : Option Address) (first : Prefix) (destination : Address) : Call Address := do
  match ← follow onward found wanted (maxGateways + 1) first with
  | some address => return address
  | none => throw (.unreachable destination.text)

theorem followHop_eq (wanted : Option Address) (left : Nat) (here : Prefix) :
    followHop wanted left here =
      follow Route.gateway (fun here _ => some here.address) wanted left here := by
  induction left generalizing here with
  | zero => rfl
  | succ left ih =>
      rw [followHop, follow]
      refine congrArg (route ⟨here, wanted⟩ >>= ·) (funext fun r => ?_)
      cases r.gateway with
      | none => rfl
      | some gateway => exact ih (target gateway none)

theorem followSource_eq (wanted : Option Address) (left : Nat) (here : Address) :
    followSource wanted left here =
      follow Route.sourcelessGateway (fun _ r => r.preferredSource) wanted left
        (target here none) := by
  induction left generalizing here with
  | zero => rfl
  | succ left ih =>
      rw [followSource, follow]
      refine congrArg (route ⟨target here none, wanted⟩ >>= ·) (funext fun r => ?_)
      simp only [Route.sourcelessGateway]
      cases r.preferredSource with
      | some source => rfl
      | none =>
          cases r.gateway with
          | none => rfl
          | some gateway => exact ih gateway

theorem nextHop_eq (destination : Address) (length : Option UInt8) (wanted : Option Address) :
    nextHop destination length wanted =
      search Route.gateway (fun here _ => some here.address) wanted (target destination length)
        destination := by
  rw [nextHop, followHop_eq]
  rfl

theorem sourceAddress_eq (destination : Address) (wanted : Option Address) :
    sourceAddress destination wanted =
      search Route.sourcelessGateway (fun _ r => r.preferredSource) wanted
        (target destination none) destination := by
  rw [sourceAddress, followSource_eq]
  rfl

/-! ## Rows of look-ups -/

/-- Look-ups, one after the other, each of which selects a route that leads on to a gateway; from
the first connection and network to those that the next look-up starts from. -/
inductive Legs (onward : Route → Option Address) (wanted : Option Address) :
    Connection → Prefix → List Address → Connection → Prefix → Prop where
  | here (c : Connection) (here : Prefix) : Legs onward wanted c here [] c here
  | leg {c middle last : Connection} {here there : Prefix} {r : Route} {gateway : Address}
      {gateways : List Address} (hrun : c.run (route ⟨here, wanted⟩) = (.ok r, middle))
      (honward : onward r = some gateway)
      (hrest : Legs onward wanted middle (target gateway none) gateways last there) :
      Legs onward wanted c here (gateway :: gateways) last there

variable {c last : Connection} {wanted : Option Address} {onward : Route → Option Address}
  {found : Prefix → Route → Option Address} {here there : Prefix} {gateways : List Address}
  {destination : Address}

/-- The networks that are asked for on the way along gateways. -/
def stops (first : Prefix) (gateways : List Address) : List Prefix :=
  first :: gateways.map (target · none)

theorem Legs.address_eq (h : Legs onward wanted c here gateways last there) :
    there.address = gateways.getLastD here.address := by
  induction h with
  | here => rfl
  | leg _ _ _ ih => rw [ih, List.getLastD_cons]; rfl

variable (found) in
theorem run_follow_of_legs (h : Legs onward wanted c here gateways last there) (left : Nat) :
    c.run (follow onward found wanted (gateways.length + left) here) =
      last.run (follow onward found wanted left there) := by
  induction h with
  | here => rw [List.length_nil, Nat.zero_add]
  | leg hrun honward _ ih =>
      rw [List.length_cons, Nat.add_right_comm, follow, run_bind, hrun]
      simp only [honward]
      exact ih

/-- From every network there is a row of so many look-ups, or of less and one that does not lead
on. -/
theorem exists_legs (onward : Route → Option Address) (wanted : Option Address) (budget : Nat)
    (c : Connection) (here : Prefix) :
    ∃ gateways last there, gateways.length ≤ budget ∧
      Legs onward wanted c here gateways last there ∧
      (gateways.length = budget ∨
        ∀ r, (last.run (route ⟨there, wanted⟩)).1 = .ok r → onward r = none) := by
  induction budget generalizing c here with
  | zero => exact ⟨[], c, here, Nat.le_refl _, .here c here, .inl rfl⟩
  | succ budget ih =>
      by_cases hleads : ∃ r gateway middle,
          c.run (route ⟨here, wanted⟩) = (.ok r, middle) ∧ onward r = some gateway
      · obtain ⟨r, gateway, middle, hrun, honward⟩ := hleads
        obtain ⟨gateways, last, there, hle, hlegs, hend⟩ := ih middle (target gateway none)
        refine ⟨gateway :: gateways, last, there, Nat.succ_le_succ hle, .leg hrun honward hlegs, ?_⟩
        simpa using hend
      · refine ⟨[], c, here, Nat.zero_le _, .here c here, .inr fun r hr => ?_⟩
        refine Option.eq_none_iff_forall_ne_some.2 fun gateway honward => hleads ?_
        exact ⟨r, gateway, _, Prod.ext hr rfl, honward⟩

/-- What a row of look-ups sends: one round for each network that it asks for. -/
theorem Legs.exists_rounds (h : Legs onward wanted c here gateways last there) :
    ∃ rounds, (last.run (route ⟨there, wanted⟩)).2.kernel.sent = c.kernel.sent ++ rounds.flatten ∧
      List.Forall₂ (fun asked => c.Round ⟨asked, wanted⟩) (stops here gateways) rounds := by
  induction h with
  | here c here =>
      obtain ⟨messages, hsent, hround, -⟩ := exists_round ⟨here, wanted⟩ c
      exact ⟨[messages], by simpa using hsent, .cons hround .nil⟩
  | @leg c middle _ here _ _ _ _ hrun _ _ ih =>
      obtain ⟨messages, hsent, hround, halike⟩ := exists_round ⟨here, wanted⟩ c
      rw [hrun] at hsent halike
      obtain ⟨rounds, hrounds, hasked⟩ := ih
      refine ⟨messages :: rounds, ?_, .cons hround (hasked.imp fun _ _ h => halike.round h)⟩
      rw [hrounds, hsent, List.flatten_cons, List.append_assoc]

theorem Legs.concat (h : Legs onward wanted c here gateways last there) {r : Route}
    {gateway : Address} {after : Connection}
    (hrun : last.run (route ⟨there, wanted⟩) = (.ok r, after)) (honward : onward r = some gateway) :
    Legs onward wanted c here (gateways ++ [gateway]) after (target gateway none) := by
  induction h with
  | here => exact .leg hrun honward (.here ..)
  | leg hfirst hleads _ ih => exact .leg hfirst hleads (ih hrun)

/-! ## Searches -/

section

variable (found destination) (h : Legs onward wanted c here gateways last there)
include h

/-- Behind a row of look-ups the search goes on with one more at least. -/
theorem run_search_of_legs (hroom : gateways.length ≤ maxGateways) :
    ∃ left, c.run (search onward found wanted here destination) =
      last.run (do
        match ← follow onward found wanted (left + 1) there with
        | some address => return address
        | none => throw (.unreachable destination.text)) := by
  obtain ⟨left, hleft⟩ := Nat.exists_eq_add_of_le hroom
  refine ⟨left, ?_⟩
  rw [search, run_bind, run_bind, hleft, Nat.add_assoc, run_follow_of_legs found h]

private theorem run_search_of_failure (hroom : gateways.length ≤ maxGateways) {e : Error}
    {after : Connection} (hrun : last.run (route ⟨there, wanted⟩) = (.error e, after)) :
    c.run (search onward found wanted here destination) = (.error e, after) := by
  obtain ⟨left, hsearch⟩ := run_search_of_legs found destination h hroom
  rw [hsearch, run_bind, follow, run_bind, hrun]

theorem run_search_of_end (hroom : gateways.length ≤ maxGateways) {r : Route}
    {after : Connection} (hrun : last.run (route ⟨there, wanted⟩) = (.ok r, after))
    (hend : onward r = none) :
    c.run (search onward found wanted here destination) =
      ((found there r).elim (.error (.unreachable destination.text)) .ok, after) := by
  obtain ⟨left, hsearch⟩ := run_search_of_legs found destination h hroom
  rw [hsearch, run_bind, follow, run_bind, hrun]
  simp only [hend]
  cases found there r <;> rfl

private theorem run_search_of_exhaustion (hfull : gateways.length = maxGateways + 1) :
    c.run (search onward found wanted here destination) =
      (.error (.unreachable destination.text), last) := by
  have hfollow := run_follow_of_legs found h 0
  rw [Nat.add_zero, hfull] at hfollow
  rw [search, run_bind, hfollow]
  rfl

end

/-- Every search is a row of look-ups that lead on and one last look-up, which fails, leads nowhere,
or leads on once too often. -/
theorem run_search_cases (onward : Route → Option Address)
    (found : Prefix → Route → Option Address) (wanted : Option Address) (c : Connection)
    (here : Prefix) (destination : Address) :
    ∃ gateways last there, gateways.length ≤ maxGateways ∧
      Legs onward wanted c here gateways last there ∧ ∃ after,
      ((∃ e, last.run (route ⟨there, wanted⟩) = (.error e, after) ∧
        c.run (search onward found wanted here destination) = (.error e, after)) ∨
      (∃ r, last.run (route ⟨there, wanted⟩) = (.ok r, after) ∧ onward r = none ∧
        c.run (search onward found wanted here destination) =
          ((found there r).elim (.error (.unreachable destination.text)) .ok, after)) ∨
      (∃ r, last.run (route ⟨there, wanted⟩) = (.ok r, after) ∧
        c.run (search onward found wanted here destination) =
          (.error (.unreachable destination.text), after))) := by
  obtain ⟨gateways, last, there, hroom, hlegs, hend⟩ :=
    exists_legs onward wanted maxGateways c here
  refine ⟨gateways, last, there, hroom, hlegs, (last.run (route ⟨there, wanted⟩)).2, ?_⟩
  cases hresult : (last.run (route ⟨there, wanted⟩)).1 with
  | error e =>
      have hrun : last.run (route ⟨there, wanted⟩) = (.error e, _) := Prod.ext hresult rfl
      exact .inl ⟨e, hrun, run_search_of_failure _ _ hlegs hroom hrun⟩
  | ok r =>
      have hrun : last.run (route ⟨there, wanted⟩) = (.ok r, _) := Prod.ext hresult rfl
      cases honward : onward r with
      | none => exact .inr (.inl ⟨r, hrun, honward, run_search_of_end _ _ hlegs hroom hrun honward⟩)
      | some gateway =>
          have hlength : gateways.length = maxGateways :=
            hend.resolve_right fun hnone => by simp [hnone r hresult] at honward
          have hlonger : (gateways ++ [gateway]).length = maxGateways + 1 := by
            rw [List.length_append, hlength]
            rfl
          exact .inr (.inr ⟨r, hrun,
            run_search_of_exhaustion _ _ (hlegs.concat hrun honward) hlonger⟩)

/-- A search finds an address just when at most as many look-ups as there may be lead on, and the
one behind them leads nowhere and comes to the address. -/
theorem search_eq_ok_iff {address : Address} :
    (c.run (search onward found wanted here destination)).1 = .ok address ↔
      ∃ gateways last there r, gateways.length ≤ maxGateways ∧
        Legs onward wanted c here gateways last there ∧
        (last.run (route ⟨there, wanted⟩)).1 = .ok r ∧ onward r = none ∧
        found there r = some address := by
  constructor
  · intro hok
    obtain ⟨gateways, last, there, hroom, hlegs, after, hcases⟩ :=
      run_search_cases onward found wanted c here destination
    rcases hcases with ⟨e, -, hsearch⟩ | ⟨r, hrun, hend, hsearch⟩ | ⟨r, -, hsearch⟩
    · rw [hsearch] at hok
      cases hok
    · rw [hsearch] at hok
      cases hfound : found there r with
      | none =>
          rw [hfound] at hok
          cases hok
      | some _ =>
          rw [hfound] at hok
          cases hok
          exact ⟨gateways, last, there, r, hroom, hlegs, congrArg Prod.fst hrun, hend, hfound⟩
    · rw [hsearch] at hok
      cases hok
  · rintro ⟨gateways, last, there, r, hroom, hlegs, hr, hend, hfound⟩
    rw [run_search_of_end _ _ hlegs hroom (Prod.ext hr rfl) hend, hfound]
    rfl

/-- A search sends one round for each network on the way along the gateways, and makes as many
look-ups. -/
theorem exists_rounds_of_search (onward : Route → Option Address)
    (found : Prefix → Route → Option Address) (wanted : Option Address) (c : Connection)
    (here : Prefix) (destination : Address) :
    ∃ gateways last there rounds, gateways.length ≤ maxGateways ∧
      Legs onward wanted c here gateways last there ∧
      (c.run (search onward found wanted here destination)).2 =
        (last.run (route ⟨there, wanted⟩)).2 ∧
      (c.run (search onward found wanted here destination)).2.kernel.sent =
        c.kernel.sent ++ rounds.flatten ∧
      List.Forall₂ (fun asked => c.Round ⟨asked, wanted⟩) (stops here gateways) rounds := by
  obtain ⟨gateways, last, there, hroom, hlegs, after, hcases⟩ :=
    run_search_cases onward found wanted c here destination
  have hafter : (c.run (search onward found wanted here destination)).2 =
      (last.run (route ⟨there, wanted⟩)).2 := by
    rcases hcases with ⟨e, hrun, hsearch⟩ | ⟨r, hrun, -, hsearch⟩ | ⟨r, hrun, hsearch⟩ <;>
      rw [hsearch, hrun]
  obtain ⟨rounds, hsent, hasked⟩ := hlegs.exists_rounds
  exact ⟨gateways, last, there, rounds, hroom, hlegs, hafter, hafter ▸ hsent, hasked⟩

private theorem mem_attributes_target (address : Address) (wanted : Option Address) :
    ⟨RouteAttribute.destination, address.octets⟩ ∈
      (RouteQuery.mk (target address none) wanted).attributes := by
  simp [RouteQuery.attributes, RouteQuery.isHost, target, Attribute.ofAddress]

/-! ## Next hops -/

/-- The next hop is found by at most three look-ups, the first for the destination and each later
one for the gateway of the route selected before, which its request names.  It is found just when
at most two routes lead on to gateways and the one behind them has none, and then it is the last of
the gateways, or the destination itself.  Where three routes lead on, whatever the gateways are, the
destination is unreachable; a look-up that fails ends the search as it ends itself. -/
theorem nextHop_follows_gateways (c : Connection) (destination : Address) (length : Option UInt8)
    (wanted : Option Address) :
    let first := target destination length
    let outcome := c.run (nextHop destination length wanted)
    (∃ gateways last there rounds, gateways.length ≤ 2 ∧
      Legs Route.gateway wanted c first gateways last there ∧
      outcome.2 = (last.run (route ⟨there, wanted⟩)).2 ∧
      outcome.2.kernel.sent = c.kernel.sent ++ rounds.flatten ∧
      List.Forall₂ (fun asked => c.Round ⟨asked, wanted⟩)
        (first :: gateways.map (target · none)) rounds ∧
      ∀ gateway ∈ gateways, ⟨RouteAttribute.destination, gateway.octets⟩ ∈
        (RouteQuery.mk (target gateway none) wanted).attributes) ∧
    (∀ hop, outcome.1 = .ok hop ↔ ∃ gateways last there r, gateways.length ≤ 2 ∧
      Legs Route.gateway wanted c first gateways last there ∧
      (last.run (route ⟨there, wanted⟩)).1 = .ok r ∧ r.gateway = none ∧
      hop = gateways.getLastD destination) ∧
    (∀ gateways last there, gateways.length = 3 →
      Legs Route.gateway wanted c first gateways last there →
      outcome = (.error (.unreachable destination.text), last)) ∧
    (∀ gateways last there e, gateways.length ≤ 2 →
      Legs Route.gateway wanted c first gateways last there →
      (last.run (route ⟨there, wanted⟩)).1 = .error e →
      outcome = (.error e, (last.run (route ⟨there, wanted⟩)).2)) := by
  intro first outcome
  have houtcome : outcome = c.run (search Route.gateway (fun here _ => some here.address) wanted
      first destination) := congrArg c.run (nextHop_eq destination length wanted)
  rw [houtcome]
  refine ⟨?_, fun hop => ?_, ?_, ?_⟩
  · obtain ⟨gateways, last, there, rounds, hroom, hlegs, hafter, hsent, hasked⟩ :=
      exists_rounds_of_search Route.gateway (fun here _ => some here.address) wanted c first
        destination
    exact ⟨gateways, last, there, rounds, hroom, hlegs, hafter, hsent, hasked,
      fun gateway _ => mem_attributes_target gateway wanted⟩
  · rw [search_eq_ok_iff]
    constructor
    · rintro ⟨gateways, last, there, r, hroom, hlegs, hr, hend, hhop⟩
      exact ⟨gateways, last, there, r, hroom, hlegs, hr, hend,
        (Option.some.inj hhop).symm.trans hlegs.address_eq⟩
    · rintro ⟨gateways, last, there, r, hroom, hlegs, hr, hend, rfl⟩
      exact ⟨gateways, last, there, r, hroom, hlegs, hr, hend, congrArg some hlegs.address_eq⟩
  · intro gateways last there hfull hlegs
    exact run_search_of_exhaustion _ _ hlegs hfull
  · intro gateways last there e hroom hlegs he
    exact run_search_of_failure _ _ hlegs hroom (Prod.ext he rfl)

/-! ## Source addresses -/

/-- The source address is found by at most three look-ups, the first for the destination and each
later one for the gateway of the route selected before, all of which name the address that they are
for.  It is found just when at most two routes lead on to gateways and name no source, and the one
behind them names it.  The destination is unreachable as soon as a route has neither, or when the
third route names no source; a look-up that fails ends the search as it ends itself. -/
theorem sourceAddress_follows_gateways (c : Connection) (destination : Address)
    (wanted : Option Address) :
    let first := target destination none
    let outcome := c.run (sourceAddress destination wanted)
    (∃ gateways last there rounds, gateways.length ≤ 2 ∧
      Legs Route.sourcelessGateway wanted c first gateways last there ∧
      outcome.2 = (last.run (route ⟨there, wanted⟩)).2 ∧
      outcome.2.kernel.sent = c.kernel.sent ++ rounds.flatten ∧
      List.Forall₂ (fun asked => c.Round ⟨asked, wanted⟩)
        (first :: gateways.map (target · none)) rounds ∧
      ∀ asked ∈ destination :: gateways, ⟨RouteAttribute.destination, asked.octets⟩ ∈
        (RouteQuery.mk (target asked none) wanted).attributes) ∧
    (∀ source, outcome.1 = .ok source ↔ ∃ gateways last there r, gateways.length ≤ 2 ∧
      Legs Route.sourcelessGateway wanted c first gateways last there ∧
      (last.run (route ⟨there, wanted⟩)).1 = .ok r ∧ r.preferredSource = some source) ∧
    (∀ gateways last there r, gateways.length ≤ 2 →
      Legs Route.sourcelessGateway wanted c first gateways last there →
      (last.run (route ⟨there, wanted⟩)).1 = .ok r → r.preferredSource = none →
      r.gateway = none ∨ gateways.length = 2 →
      outcome = (.error (.unreachable destination.text),
        (last.run (route ⟨there, wanted⟩)).2)) ∧
    (∀ gateways last there e, gateways.length ≤ 2 →
      Legs Route.sourcelessGateway wanted c first gateways last there →
      (last.run (route ⟨there, wanted⟩)).1 = .error e →
      outcome = (.error e, (last.run (route ⟨there, wanted⟩)).2)) := by
  intro first outcome
  have houtcome : outcome = c.run (search Route.sourcelessGateway (fun _ r => r.preferredSource)
      wanted first destination) := congrArg c.run (sourceAddress_eq destination wanted)
  rw [houtcome]
  refine ⟨?_, fun source => ?_, ?_, ?_⟩
  · obtain ⟨gateways, last, there, rounds, hroom, hlegs, hafter, hsent, hasked⟩ :=
      exists_rounds_of_search Route.sourcelessGateway (fun _ r => r.preferredSource) wanted c first
        destination
    exact ⟨gateways, last, there, rounds, hroom, hlegs, hafter, hsent, hasked,
      fun asked _ => mem_attributes_target asked wanted⟩
  · rw [search_eq_ok_iff]
    constructor
    · rintro ⟨gateways, last, there, r, hroom, hlegs, hr, -, hsource⟩
      exact ⟨gateways, last, there, r, hroom, hlegs, hr, hsource⟩
    · rintro ⟨gateways, last, there, r, hroom, hlegs, hr, hsource⟩
      have hend : r.sourcelessGateway = none := by rw [Route.sourcelessGateway, hsource]
      exact ⟨gateways, last, there, r, hroom, hlegs, hr, hend, hsource⟩
  · intro gateways last there r hroom hlegs hr hsource hstuck
    have hrun : last.run (route ⟨there, wanted⟩) = (.ok r, _) := Prod.ext hr rfl
    cases hgateway : r.gateway with
    | none =>
        have hend : r.sourcelessGateway = none := by rw [Route.sourcelessGateway, hsource, hgateway]
        rw [run_search_of_end _ _ hlegs hroom hrun hend, hsource]
        rfl
    | some gateway =>
        have hlength : gateways.length = 2 := hstuck.resolve_left (by simp [hgateway])
        have honward := Route.sourcelessGateway_eq_some_iff.2 ⟨hsource, hgateway⟩
        exact run_search_of_exhaustion _ _ (hlegs.concat hrun honward)
          (by simp [hlength, maxGateways])
  · intro gateways last there e hroom hlegs he
    exact run_search_of_failure _ _ hlegs hroom (Prod.ext he rfl)

end Connection

end RouteControl
