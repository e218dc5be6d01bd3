import RouteControl.Proofs.Connection.Gateways
import RouteControl.Proofs.Connection.Refusal
import RouteControl.Proofs.Record.Requests

/-!
# What calls send

A call only adds to what was sent, and what it adds is told call by call: where all that a call
sends is of one sort, and all that comes after it too, so is what both send (`Sends.bind`).  All
that is sent about an address, a source route or a look-up begins with a family and a length
(`Heads`), and these are those of the network that it is about.
-/

namespace RouteControl

open Bytes Draft

/-- Some bytes are one message, which begins with a family and the length of a prefix. -/
def Heads (message : Bytes) (family : Family) (length : UInt8) : Prop :=
  ∃ m, Message.read message = ⟨[m], none⟩ ∧ m.payload.take 2 = [family, length]

variable {message : Bytes}

private theorem RouteHeader.take_of_decode {payload : Bytes} {header : RouteHeader}
    (h : decode payload = .ok header) :
    payload.take 2 = [header.family, header.destinationLength] := by
  unfold decode at h
  split at h
  · cases h
  · rename_i hlong
    cases h
    rcases payload with _ | ⟨first, _ | ⟨second, rest⟩⟩
    · simp [size] at hlong
    · simp [size] at hlong
    · rfl

theorem ReadsAs.heads {type : MessageType} {flags : MessageFlags} {header : RouteHeader}
    {attributes : List Attribute} (h : ReadsAs message type flags header attributes) :
    Heads message header.family header.destinationLength := by
  obtain ⟨m, hread, -, -, hheader, -⟩ := h
  exact ⟨m, hread, RouteHeader.take_of_decode hheader⟩

namespace Connection

variable {α β : Type} {sort : Bytes → Prop}

/-- All that the call sends is of this sort. -/
def Sends (sort : Bytes → Prop) (call : Call α) : Prop :=
  ∀ c : Connection, ∃ messages, (c.run call).2.kernel.sent = c.kernel.sent ++ messages ∧
    ∀ message ∈ messages, sort message

private theorem sends_of_connection_eq {call : Call α} (h : ∀ c : Connection, (c.run call).2 = c) :
    Sends sort call := by
  intro c
  rw [h c]
  exact ⟨[], (List.append_nil _).symm, nofun⟩

theorem Sends.imp {wider : Bytes → Prop} {call : Call α} (h : Sends sort call)
    (hsort : ∀ message, sort message → wider message) : Sends wider call := by
  intro c
  obtain ⟨messages, hsent, hmessages⟩ := h c
  exact ⟨messages, hsent, fun message hmessage => hsort message (hmessages message hmessage)⟩

theorem Sends.bind {first : Call α} {next : α → Call β} (h : Sends sort first)
    (hnext : ∀ (c : Connection) (a : α), (c.run first).1 = .ok a → Sends sort (next a)) :
    Sends sort (first >>= next) := by
  intro c
  obtain ⟨messages, hsent, hmessages⟩ := h c
  rw [run_bind]
  rcases hfirst : c.run first with ⟨e | a, middle⟩ <;> rw [hfirst] at hsent
  · exact ⟨messages, hsent, hmessages⟩
  · obtain ⟨more, hmore, hsorted⟩ := hnext c a (congrArg Prod.fst hfirst) middle
    refine ⟨messages ++ more, ?_, List.forall_mem_append.2 ⟨hmessages, hsorted⟩⟩
    rw [← List.append_assoc, ← hsent]
    exact hmore

theorem Sends.bind_return {call : Call α} (h : Sends sort call) (f : α → β) :
    Sends sort (do return f (← call)) := by
  intro c
  rw [run_bind_return]
  exact h c

/-! ## Changes -/

theorem sends_requestAck {d : Draft} (hd : d.WellFormed)
    (h : ∀ seq portId, sort ((d.withSeq seq).withPortId portId).bytes) :
    Sends sort (requestAck d) := by
  intro c
  obtain ⟨attempts, -, hsent, -⟩ := exists_transmissions hd c
  rw [requestAck_connection]
  refine ⟨_, hsent, fun message hmessage => ?_⟩
  rw [List.eq_of_mem_replicate hmessage]
  exact h _ _

theorem sends_hostAddress (type : MessageType) (flags : MessageFlags) (a : HostAddress) :
    Sends (Heads · a.address.address.family a.address.length)
      (do requestAck (← compose (draft type flags) a.write)) := by
  refine Sends.bind (sends_of_connection_eq fun c => by rw [run_compose_draft]) fun c d hd => ?_
  rw [run_compose_draft] at hd
  have hwell := wellFormed_of_edited a.writes hd
  rcases edited_cases type flags c.settings.requestCapacity a.writes with hok | ⟨_, _, herror⟩
  · rw [hok] at hd
    cases hd
    refine sends_requestAck hwell fun seq portId => ?_
    have hsmall : MessageHeader.size + a.payload.length < 2 ^ 32 := by
      rw [a.length_payload]
      exact a.requestSize_lt
    refine ⟨_, read_bytes_numbered a.length_payload_mod_four hsmall seq portId, ?_⟩
    rw [a.payload_eq]
    rfl
  · rw [herror] at hd
    cases hd

theorem sends_resolve (device : InterfaceRef) : Sends sort (resolve device) :=
  sends_of_connection_eq fun c => by rw [run_resolve]

theorem sends_addAddress (device : InterfaceRef) (address : Prefix) :
    Sends (Heads · address.address.family address.length) (addAddress device address) :=
  (sends_resolve device).bind fun _ index _ => sends_hostAddress _ _ ⟨index, address⟩

theorem sends_deleteAddress (device : InterfaceRef) (address : Prefix) :
    Sends (Heads · address.address.family address.length) (deleteAddress device address) :=
  (sends_resolve device).bind fun _ index _ => sends_hostAddress _ _ ⟨index, address⟩

/-- All that is sent about a source route begins with the family and the length of its destination,
and the route is fit to be asked for. -/
theorem sends_changeSourceRoute (type : MessageType) (flags : MessageFlags) (withMetrics : Bool)
    (r : SourceRoute) :
    Sends (fun message => r.validate = .ok () ∧
        Heads message r.destination.address.family r.destination.length)
      (changeSourceRoute type flags withMetrics r) := by
  intro c
  obtain ⟨messages, hsent, hmessages⟩ := sent_changeSourceRoute type flags withMetrics r c
  refine ⟨messages, hsent, fun message hmessage => ?_⟩
  obtain ⟨hvalid, _, hreads⟩ := hmessages message hmessage
  exact ⟨hvalid, hreads.heads⟩

/-! ## Look-ups -/

/-- The message is the question for routes to some network of this sort. -/
def AsksFor (networks : Prefix → Prop) (message : Bytes) : Prop :=
  ∃ network, networks network ∧ Heads message network.address.family network.length

variable {networks : Prefix → Prop} {network : Prefix} {wanted : Option Address}

theorem sends_route (h : networks network) :
    Sends (AsksFor networks) (route ⟨network, wanted⟩) := by
  intro c
  obtain ⟨messages, hsent, hround, -⟩ := exists_round ⟨network, wanted⟩ c
  exact ⟨messages, hsent, fun message hmessage =>
    ⟨network, h, (hround.asks message hmessage).heads⟩⟩

theorem sends_follow (onward : Route → Option Address) (found : Prefix → Route → Option Address)
    (hsingle : ∀ a, networks (target a none)) (left : Nat) (h : networks network) :
    Sends (AsksFor networks) (follow onward found wanted left network) := by
  induction left generalizing network with
  | zero => exact sends_of_connection_eq fun c => rfl
  | succ left ih =>
      refine (sends_route h).bind fun _ r _ => ?_
      cases onward r with
      | none => exact sends_of_connection_eq fun c => rfl
      | some gateway => exact ih (hsingle gateway)

theorem sends_search (onward : Route → Option Address) (found : Prefix → Route → Option Address)
    (hsingle : ∀ a, networks (target a none)) (h : networks network) (destination : Address) :
    Sends (AsksFor networks) (search onward found wanted network destination) := by
  refine (sends_follow onward found hsingle (maxGateways + 1) h).bind fun _ result _ => ?_
  cases result <;> exact sends_of_connection_eq fun c => rfl

end Connection

end RouteControl
