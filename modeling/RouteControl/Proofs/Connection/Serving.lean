import RouteControl.Proofs.Connection.Enumeration
import RouteControl.Proofs.Connection.Gateways
import RouteControl.Proofs.Kernel.Table

/-!
# Kernels that serve a table

A kernel that answers every request for routes with the same records serves a table.  As long as it
does, a look-up comes to the route that the table holds for the question, whatever was looked up
before (`run_route_of_serving`), and after a search the kernel still serves (`Serving.search`).
-/

namespace RouteControl

namespace Connection

open Response Script

variable {table : List Record} {answer : List Reply} {query : RouteQuery} {n : Nat}
  {c c' : Connection}

/-- These replies answer any request for routes with the records of a table, all of which are
messages about routes. -/
structure Serves (table : List Record) (answer : List Reply) : Prop where
  routes : ∀ r ∈ table, r.type = .newRoute
  completes : ∀ seq, Completes seq answer (listing table seq)

/-- The kernel takes messages, and answers so many requests with the table. -/
structure Serving (table : List Record) (n : Nat) (c : Connection) : Prop where
  ready : c.kernel.sendFailure = none
  replies : ∃ answer copies left, Serves table answer ∧ n ≤ copies ∧
    c.kernel.replies = (List.replicate copies answer).flatten ++ left

theorem serves_records (h : ∀ r ∈ table, r.IsListed) :
    Serves table [.records 0 (table ++ [.done])] where
  routes := fun r hr => (h r hr).type_eq
  completes := completes_listing h

theorem Serving.mono {m : Nat} (h : Serving table n c) (hle : m ≤ n) : Serving table m c where
  ready := h.ready
  replies := by
    obtain ⟨answer, copies, left, hserves, hcopies, hreplies⟩ := h.replies
    exact ⟨answer, copies, left, hserves, Nat.le_trans hle hcopies, hreplies⟩

/-! ## The listing of a table -/

private theorem kind_message {r : Record} (h : r.type = .newRoute) (seq : UInt32) :
    (r.message seq).kind = .newRoute := by
  rw [Message.kind, MessageHeader.kind, Record.message, h]
  rfl

theorem Serves.lists (h : Serves table answer) (seq : UInt32) :
    Lists .newRoute (listing table seq) where
  led := by
    cases table with
    | nil => exact ⟨_, rfl, .inr (.inl rfl)⟩
    | cons r rest =>
        exact ⟨_, rfl, .inr (.inr (kind_message (h.routes r List.mem_cons_self) seq))⟩
  unfailed := by
    intro m hm herror
    obtain ⟨r, hr, rfl⟩ := List.mem_map.1 hm
    rcases List.mem_append.1 hr with hr | hr
    · rw [kind_message (h.routes r hr)] at herror
      cases herror
    · obtain rfl := List.mem_singleton.1 hr
      cases herror

theorem Serves.entriesOf_listing (h : Serves table answer) (seq : UInt32) :
    entriesOf .newRoute (listing table seq) = table.map (·.message seq) := by
  have hroutes : entriesOf .newRoute (table.map (·.message seq)) = table.map (·.message seq) := by
    refine List.filter_eq_self.2 fun m hm => ?_
    obtain ⟨r, hr, rfl⟩ := List.mem_map.1 hm
    rw [kind_message (h.routes r hr)]
    rfl
  rw [listing, List.map_append, entriesOf, List.filter_append]
  exact (congrArg (· ++ _) hroutes).trans (List.append_nil _)

theorem Serves.dumpPayloads (h : Serves table answer) (seq : UInt32) :
    (ofMessages (listing table seq)).dumpPayloads .newRoute = .ok (table.map (·.payload)) := by
  have hcompletes := h.completes seq
  rw [dumpPayloads_of_lists hcompletes.wellFormed hcompletes.terminated.doneLast (h.lists seq),
    h.entriesOf_listing, List.map_map]
  rfl

theorem Serves.not_busy (h : Serves table answer) (seq : UInt32) :
    ¬LedBy busyCode (listing table seq) := by
  cases table with
  | nil =>
      have htype : (Record.done.message seq).header.type = .done := rfl
      exact fun hled => absurd (htype.symm.trans hled.1) (by decide)
  | cons r rest =>
      have htype : (r.message seq).header.type = .newRoute := h.routes r List.mem_cons_self
      exact fun hled => absurd (htype.symm.trans hled.1) (by decide)

/-! ## Look-ups in a table -/

/-- The route that a table holds for a question, where the question can be asked. -/
def lookedUp (table : List Record) (query : RouteQuery) (c : Connection) : Except Error Route :=
  match c.routesRequest query with
  | .error e => .error e
  | .ok _ =>
    match Route.select query.destination query.wanted (routesOf table) with
    | some r => .ok r
    | none => .error (.unreachable query.destination.address.text)

theorem lookedUp_of_room {r : Route}
    (hroom : (Draft.Form.ofCapacity .getRoute (.request ||| .dump)
      c.settings.requestCapacity).Fits (query.header.payload query.attributes))
    (hselect : Route.select query.destination query.wanted (routesOf table) = some r) :
    c.lookedUp table query = .ok r := by
  have hrequest : c.routesRequest query = _ := Draft.edited_of_room query.writes hroom
  rw [lookedUp, hrequest]
  simp only [hselect]

theorem Alike.lookedUp (h : c.Alike c') (table : List Record) (query : RouteQuery) :
    c'.lookedUp table query = c.lookedUp table query := by
  rw [Connection.lookedUp, Connection.lookedUp, routesRequest, routesRequest, h.settings_eq]

/-- A request for routes uses up one answer of a kernel that serves. -/
theorem run_request_of_serving (h : Serving table (n + 1) c) {d : Draft} (hd : d.WellFormed) :
    ∃ seq answer after, c.run (request d) = (.ok (.ofMessages (listing table seq)), after) ∧
      Serves table answer ∧ Serving table n after ∧ c.Alike after := by
  obtain ⟨answer, copies, left, hserves, hcopies, hreplies⟩ := h.replies
  obtain ⟨more, rfl⟩ := Nat.exists_eq_add_of_le' hcopies
  have hsplit : c.kernel.replies =
      [].flatten ++ (answer ++ ((List.replicate (more + n) answer).flatten ++ left)) := by
    rw [hreplies, ← Nat.add_assoc, List.replicate_succ, List.flatten_cons, List.append_assoc]
    rfl
  have hcourse : Course c.settings c.nextSeq c.kernel.replies _ 1 _ :=
    .answered busyRuns_nil c.settings.transmissions_pos (hserves.completes c.nextSeq)
      (hserves.not_busy c.nextSeq) hsplit
  obtain ⟨hresult, -, hleft⟩ := (course_iff hd h.ready).1 hcourse
  obtain ⟨-, -, -, -, hsettings, hfailure⟩ := exists_transmissions hd c
  exact ⟨c.nextSeq, answer, _, Prod.ext hresult rfl, hserves,
    ⟨hfailure.trans h.ready, answer, more + n, left, hserves, Nat.le_add_left n more, hleft⟩,
    hsettings, hfailure⟩

theorem run_route_of_serving (h : Serving table (n + 1) c) (query : RouteQuery) :
    ∃ after, c.run (route query) = (c.lookedUp table query, after) ∧ Serving table n after ∧
      c.Alike after := by
  cases hrequest : c.routesRequest query with
  | error e =>
      refine ⟨c, ?_, h.mono (Nat.le_succ n), .refl c⟩
      rw [route, run_bind, run_queryRoutes_of_unwritten hrequest, lookedUp, hrequest]
  | ok d =>
      obtain ⟨seq, answer, after, hrun, hserves, hserving, halike⟩ :=
        run_request_of_serving h (wellFormed_of_routesRequest hrequest)
      have hentries : c.run (entries d .newRoute Route.decode?) =
          (.ok (routesOf table), after) := by
        rw [entries, run_bind, hrun]
        simp only [run_bind, run_ofExcept, hserves.dumpPayloads]
        rfl
      refine ⟨after, ?_, hserving, halike⟩
      rw [route, run_bind, run_queryRoutes_of_written hrequest, hentries, lookedUp, hrequest]
      simp only
      cases Route.select query.destination query.wanted (routesOf table) <;> rfl

/-! ## Searches in a table -/

variable {last : Connection} {wanted : Option Address} {onward : Route → Option Address}
  {found : Prefix → Route → Option Address} {here there : Prefix} {gateways : List Address}

theorem Legs.serving (h : Legs onward wanted c here gateways last there)
    (hserving : Serving table (gateways.length + n) c) :
    Serving table n last ∧ c.Alike last := by
  induction h with
  | here c => exact ⟨hserving.mono (Nat.le_add_left n _), .refl c⟩
  | @leg c middle _ here _ _ _ gateways hrun _ _ ih =>
      rw [List.length_cons, Nat.add_right_comm] at hserving
      obtain ⟨after, hroute, hafter, halike⟩ := run_route_of_serving hserving ⟨here, wanted⟩
      obtain rfl : middle = after := congrArg Prod.snd (hrun.symm.trans hroute)
      obtain ⟨hlast, hrest⟩ := ih hafter
      exact ⟨hlast, halike.trans hrest⟩

/-- A search uses up no more answers than it may make look-ups. -/
theorem Serving.search (h : Serving table (n + (maxGateways + 1)) c)
    (onward : Route → Option Address) (found : Prefix → Route → Option Address)
    (wanted : Option Address) (here : Prefix) (destination : Address) :
    Serving table n (c.run (search onward found wanted here destination)).2 ∧
      c.Alike (c.run (search onward found wanted here destination)).2 := by
  obtain ⟨gateways, last, there, -, hroom, hlegs, hafter, -⟩ :=
    exists_rounds_of_search onward found wanted c here destination
  have hserving : Serving table (gateways.length + (n + 1)) c := h.mono (by omega)
  obtain ⟨hlast, halike⟩ := hlegs.serving hserving
  obtain ⟨after, hroute, hserves, hrest⟩ := run_route_of_serving hlast ⟨there, wanted⟩
  rw [hafter, hroute]
  exact ⟨hserves, halike.trans hrest⟩

/-- The search for a source address ends with the first look-up where the route leads nowhere. -/
theorem sourceAddress_of_serving {destination : Address} {r : Route}
    (hserving : Serving table (n + 1) c)
    (hr : c.lookedUp table ⟨target destination none, wanted⟩ = .ok r)
    (hend : r.sourcelessGateway = none) :
    (c.run (sourceAddress destination wanted)).1 =
      r.preferredSource.elim (.error (.unreachable destination.text)) .ok := by
  obtain ⟨after, hrun, -⟩ := run_route_of_serving hserving ⟨target destination none, wanted⟩
  rw [hr] at hrun
  have hsearch := run_search_of_end (fun _ r => r.preferredSource) destination (.here c _)
    (Nat.zero_le _) hrun hend
  rw [sourceAddress_eq, hsearch]

/-! ## One answer -/

def servingOnce (table : List Record) : Connection :=
  { kernel := { replies := [.records 0 (table ++ [.done])] } }

theorem serving_servingOnce (h : ∀ r ∈ table, r.IsListed) :
    Serving table 1 (servingOnce table) where
  ready := rfl
  replies := ⟨_, 1, [], serves_records h, Nat.le_refl _, rfl⟩

end Connection

end RouteControl
