import RouteControl.CommandLine.Execute
import RouteControl.Proofs.CommandLine.RouteAnswer
import RouteControl.Proofs.Connection.Sending
import RouteControl.Proofs.Prefix.Text

/-!
# Prefix lengths on the wire

The length of a prefix reaches the kernel in three ways.  For an address it is read with the
address, which has as many bits (`addressFits_of_parse?`); a source route is validated before it is
asked for; and the length for a look-up is taken as it is given.  So what is sent about addresses
and source routes has a length that its family allows, and so have the look-ups along gateways,
which are for single addresses; a look-up of the destination itself has the length asked for, even
if the destination has fewer bits (`sent_lengths_fit`).
-/

namespace RouteControl

open Connection

def LengthFits (family : Family) (length : UInt8) : Prop :=
  (family = .inet → length ≤ 32) ∧ (family = .inet6 → length ≤ 128)

private theorem lengthFits_iff (a : Address) (length : UInt8) :
    LengthFits a.family length ↔ length ≤ a.width := by
  cases a with
  | v4 _ => exact ⟨fun h => h.1 rfl, fun h => ⟨fun _ => h, nofun⟩⟩
  | v6 _ => exact ⟨fun h => h.2 rfl, fun h => ⟨nofun, fun _ => h⟩⟩

namespace CommandLine

/-! ## Lengths in arguments -/

/-- A command about an address of this host names no more bits than the address has. -/
def AddressFits : Command → Prop
  | .addAddress _ address | .deleteAddress _ address => address.length ≤ address.address.width
  | _ => True

variable {arguments : List String} {command : Command}

private theorem length_le_of_network? {text : String} {p : Prefix} (h : network? text = some p) :
    p.length ≤ p.address.width :=
  Prefix.length_le_of_spells (Prefix.spells_of_parse (Prefix.network?_eq_some_iff.1 h))

private theorem length_le_of_addressArguments? {a : Arguments} {device : InterfaceRef}
    {address : Prefix} (h : addressArguments? a = some (device, address)) :
    address.length ≤ address.address.width := by
  simp only [addressArguments?, Option.bind_eq_bind, Option.bind_eq_some_iff] at h
  obtain ⟨p, ⟨text, -, hp⟩, _, -, hresult⟩ := h
  cases hresult
  exact length_le_of_network? hp

/-- Whatever is said behind its words, the command names no more bits than an address has. -/
def Form.Fits (f : Form) : Prop := ∀ a command, f.command? a = some command → AddressFits command

private theorem fits_of_map {α : Type} {switches : List Switch} {read : Arguments → Option α}
    {command : α → Command} (h : ∀ a value, read a = some value → AddressFits (command value)) :
    Form.Fits ⟨switches, fun a => (read a).map command⟩ := by
  intro a found hfound
  obtain ⟨value, hread, rfl⟩ := Option.map_eq_some_iff.1 hfound
  exact h a value hread

private theorem fits_addressForm {command : InterfaceRef → Prefix → Command}
    (h : ∀ device address, address.length ≤ address.address.width →
      AddressFits (command device address)) : (addressForm command).Fits := by
  apply fits_of_map
  intro a ⟨device, address⟩ haddress
  exact h device address (length_le_of_addressArguments? haddress)

private theorem fits_bareForm {command : Command} (h : AddressFits command) :
    (bareForm command).Fits := by
  intro a found hfound
  obtain ⟨-, hsame⟩ := Option.ite_none_right_eq_some.1 hfound
  rwa [← Option.some.inj hsame]

private theorem addressFits_of_getRoute? {a : Arguments} (h : getRoute? a = some command) :
    AddressFits command := by
  simp only [getRoute?, Option.bind_eq_bind, Option.bind_eq_some_iff] at h
  obtain ⟨_, -, _, -, _, -, hresult⟩ := h
  cases hresult
  trivial

private theorem addressFits_of_monitor? {a : Arguments} (h : monitor? a = some command) :
    AddressFits command := by
  obtain ⟨-, hsame⟩ := Option.ite_none_right_eq_some.1 h
  rw [← Option.some.inj hsame]
  trivial

def Entry.Fits : Entry → Prop
  | form f => f.Fits
  | words forms => ∀ entry ∈ forms, entry.2.Fits

theorem fits_of_mem_commands : ∀ entry ∈ commands, entry.2.Fits := by
  simp only [commands, List.forall_mem_cons, List.not_mem_nil, Entry.Fits]
  exact ⟨⟨fits_addressForm fun _ _ h => h, fits_addressForm fun _ _ h => h, nofun⟩,
    ⟨fits_of_map fun _ _ _ => trivial, fits_of_map fun _ _ _ => trivial,
      fun _ _ => addressFits_of_getRoute?, nofun⟩,
    ⟨fits_of_map fun _ _ _ => trivial, fits_of_map fun _ _ _ => trivial, nofun⟩,
    ⟨fits_bareForm trivial, fits_bareForm trivial, nofun⟩,
    fun _ _ => addressFits_of_monitor?, nofun⟩

section

variable {everywhere : List Switch} {places : List Arguments}

private theorem addressFits_of_form {f : Form} (hf : f.Fits)
    (h : f.read? everywhere arguments = some (places, command)) : AddressFits command := by
  simp only [Form.read?, Option.bind_eq_bind, Option.bind_eq_some_iff] at h
  obtain ⟨a, -, found, hfound, hresult⟩ := h
  cases hresult
  exact hf a _ hfound

private theorem addressFits_of_words {α : Type} {words : Words α}
    {next : α → List String → Option (List Arguments × Command)}
    (hnext : ∀ entry ∈ words, ∀ {rest behind found},
      next entry.2 rest = some (behind, found) → AddressFits found)
    (h : words.read? everywhere next arguments = some (places, command)) : AddressFits command := by
  simp only [Words.read?, Option.bind_eq_bind, Option.bind_eq_some_iff] at h
  obtain ⟨⟨front, rest⟩, -, h⟩ := h
  cases rest with
  | nil => cases h
  | cons word rest =>
      simp only [Option.bind_eq_some_iff] at h
      obtain ⟨entry, hentry, ⟨behind, found⟩, hfound, hresult⟩ := h
      cases hresult
      exact hnext entry (List.mem_of_find?_eq_some hentry) hfound

/-- This holds whatever switches are known everywhere. -/
theorem addressFits_of_spelled? (h : spelled? everywhere arguments = some (places, command)) :
    AddressFits command := by
  refine addressFits_of_words (fun entry hmem _ _ _ hread => ?_) h
  have hfits := fits_of_mem_commands entry hmem
  cases hentry : entry.2 with
  | form f =>
      rw [hentry] at hfits hread
      exact addressFits_of_form hfits hread
  | words forms =>
      rw [hentry] at hfits hread
      exact addressFits_of_words (fun form hform _ _ _ => addressFits_of_form (hfits form hform))
        hread

end

theorem addressFits_of_parse? (h : parse? arguments = some command) : AddressFits command := by
  obtain ⟨⟨places, found⟩, hfound, rfl⟩ := Option.map_eq_some_iff.1 h
  exact addressFits_of_spelled? hfound

/-! ## Lengths that are sent -/

def TellsNetwork : Command → Prop
  | .addAddress .. | .deleteAddress .. | .addSourceRoute _ | .deleteSourceRoute _
  | .getRoute .. => True
  | _ => False

/-- The message begins with a family and a length that this family allows. -/
def Fitting (message : Bytes) : Prop :=
  ∃ family length, Heads message family length ∧ LengthFits family length

private theorem fitting_of_heads {message : Bytes} {p : Prefix}
    (h : Heads message p.address.family p.length) (hlength : p.length ≤ p.address.width) :
    Fitting message :=
  ⟨_, _, h, (lengthFits_iff _ _).2 hlength⟩

theorem sends_attempt {α : Type} {sort : Bytes → Prop} {call : Call α} (h : Sends sort call) :
    Sends sort (attempt call) := by
  intro c
  rw [run_attempt]
  exact h c

section

variable (destination : Address) (length : Option UInt8) (wanted : Option Address)

/-- What is asked for on the way to an answer: the destination with the length given, and single
addresses. -/
def Asked (network : Prefix) : Prop :=
  network = target destination length ∨ network.length = network.address.width

theorem exists_sent_of_answerRoute (c : Connection) :
    ∃ first rest,
      (c.run (answerRoute destination length wanted)).2.kernel.sent =
        c.kernel.sent ++ (first ++ rest) ∧
      c.Round ⟨target destination length, wanted⟩ first ∧
      ∀ message ∈ rest, AsksFor (Asked destination length) message := by
  have hsingle : ∀ a, Asked destination length (target a none) := fun a => .inr rfl
  have hbehind : ∀ r, Sends (AsksFor (Asked destination length)) (do
      let source ← attempt (sourceAddress destination wanted)
      let hop ← nextHop destination length wanted
      return RouteAnswer.mk r source hop) := by
    intro r
    rw [sourceAddress_eq, nextHop_eq]
    refine (sends_attempt (sends_search _ _ hsingle (hsingle destination) _)).bind fun _ _ _ => ?_
    exact (sends_search _ _ hsingle (.inl rfl) _).bind_return _
  obtain ⟨first, hsent, hround, -⟩ := exists_round ⟨target destination length, wanted⟩ c
  rw [answerRoute, run_bind]
  rcases hroute : c.run (route ⟨target destination length, wanted⟩) with ⟨e | r, middle⟩ <;>
    rw [hroute] at hsent
  · rw [← List.append_nil first] at hsent
    exact ⟨first, [], hsent, hround, by simp⟩
  · obtain ⟨rest, hmore, hrest⟩ := hbehind r middle
    refine ⟨first, rest, ?_, hround, hrest⟩
    rw [← List.append_assoc, ← hsent]
    exact hmore

end

private theorem sends_changeSourceRoute_fitting (type : MessageType) (flags : MessageFlags)
    (withMetrics : Bool) (r : SourceRoute) :
    Sends Fitting (changeSourceRoute type flags withMetrics r) := by
  refine (sends_changeSourceRoute type flags withMetrics r).imp fun message ⟨hvalid, hheads⟩ => ?_
  have hsound := SourceRoute.not_faulty_of_validate hvalid
  simp only [SourceRoute.Faulty, not_or] at hsound
  exact fitting_of_heads hheads (UInt8.not_lt.1 hsound.2.1)

/-- Whatever changes an address or a source route sends lengths that fit. -/
theorem sends_fitting_of_change (hfits : AddressFits command) (htells : TellsNetwork command)
    (hchange : ∀ destination length wanted, command ≠ .getRoute destination length wanted)
    (format : Format) : Sends Fitting (execute format command) := by
  cases command with
  | addAddress device address =>
      exact
        ((sends_addAddress device address).imp fun _ h => fitting_of_heads h hfits).bind_return _
  | deleteAddress device address =>
      exact ((sends_deleteAddress device address).imp
        fun _ h => fitting_of_heads h hfits).bind_return _
  | addSourceRoute r => exact (sends_changeSourceRoute_fitting _ _ true r).bind_return _
  | deleteSourceRoute r => exact (sends_changeSourceRoute_fitting _ _ false r).bind_return _
  | getRoute destination length wanted => exact absurd rfl (hchange destination length wanted)
  | addRule | deleteRule | showLinks | showAddresses | monitor => exact htells.elim

/-- A message that asks for what may be asked for has a length that fits, but for the destination
itself with more bits than it has. -/
theorem fitting_or_overlong {destination : Address} {length : Option UInt8} {message : Bytes}
    (h : AsksFor (Asked destination length) message) :
    Fitting message ∨ ∃ given, length = some given ∧ destination.width < given ∧
      Heads message destination.family given := by
  obtain ⟨network, hasked | hfull, hheads⟩ := h
  · subst hasked
    cases length with
    | none => exact .inl (fitting_of_heads hheads (UInt8.le_refl _))
    | some given =>
        by_cases hlong : destination.width < given
        · exact .inr ⟨given, rfl, hlong, hheads⟩
        · exact .inl (fitting_of_heads hheads (UInt8.not_lt.1 hlong))
  · exact .inl (fitting_of_heads hheads (hfull ▸ UInt8.le_refl _))

/-- All messages about addresses and source routes begin with a length that their family allows, and
so do those of look-ups, but for the look-up of a destination with a length that was given.  That
length is sent as it is, even if the destination has fewer bits, whenever the question can be asked
at all. -/
theorem sent_lengths_fit (hparse : parse? arguments = some command)
    (htells : TellsNetwork command) (format : Format) (c : Connection) :
    ∃ messages,
      (c.run (execute format command)).2.kernel.sent = c.kernel.sent ++ messages ∧
      (∀ message ∈ messages, Fitting message ∨ ∃ destination length wanted,
        command = .getRoute destination (some length) wanted ∧ destination.width < length ∧
          Heads message destination.family length) ∧
      (∀ destination length wanted, command = .getRoute destination (some length) wanted →
        c.CanAsk ⟨⟨destination, length⟩, wanted⟩ →
          ∃ message ∈ messages, Heads message destination.family length) := by
  by_cases hget : ∃ destination length wanted, command = .getRoute destination length wanted
  · obtain ⟨destination, length, wanted, rfl⟩ := hget
    obtain ⟨first, rest, hsent, hround, hrest⟩ :=
      exists_sent_of_answerRoute destination length wanted c
    have hfirst : ∀ message ∈ first, AsksFor (Asked destination length) message :=
      fun message hmessage => ⟨_, .inl rfl, (hround.asks message hmessage).heads⟩
    refine ⟨first ++ rest, ?_, fun message hmessage => ?_, ?_⟩
    · rw [execute, run_bind_return]
      exact hsent
    · rcases fitting_or_overlong (List.forall_mem_append.2 ⟨hfirst, hrest⟩ message hmessage) with
        hfitting | ⟨given, rfl, hlong, hheads⟩
      · exact .inl hfitting
      · exact .inr ⟨destination, given, wanted, rfl, hlong, hheads⟩
    · rintro _ given _ ⟨⟩ hcan
      obtain ⟨message, hmessage⟩ := List.exists_mem_of_ne_nil _ (hround.sent_of_canAsk hcan)
      exact ⟨message, List.mem_append_left _ hmessage, (hround.asks message hmessage).heads⟩
  · have hchange : ∀ destination length wanted, command ≠ .getRoute destination length wanted :=
      fun destination length wanted h => hget ⟨destination, length, wanted, h⟩
    obtain ⟨messages, hsent, hmessages⟩ :=
      sends_fitting_of_change (addressFits_of_parse? hparse) htells hchange format c
    exact ⟨messages, hsent, fun message hmessage => .inl (hmessages message hmessage),
      fun destination length wanted h => absurd h (hchange destination (some length) wanted)⟩

theorem sent_lengths_fit_hosts :
    parse? ["addr", "add", "10.0.0.1/24", "--dev", "7"] =
      some (.addAddress (.index 7) ⟨.v4 0x0a000001, 24⟩) ∧
    TellsNetwork (.addAddress (.index 7) ⟨.v4 0x0a000001, 24⟩) ∧
    ∃ message, (({} : Connection).run
        (execute .text (.addAddress (.index 7) ⟨.v4 0x0a000001, 24⟩))).2.kernel.sent = [message] ∧
      Fitting message := by
  have hparse : parse? ["addr", "add", "10.0.0.1/24", "--dev", "7"] =
      some (.addAddress (.index 7) ⟨.v4 0x0a000001, 24⟩) := by decide +kernel
  have htells : TellsNetwork (.addAddress (.index 7) ⟨.v4 0x0a000001, 24⟩) := trivial
  have honce : (({} : Connection).run
      (execute .text (.addAddress (.index 7) ⟨.v4 0x0a000001, 24⟩))).2.kernel.sent.length = 1 := by
    decide +kernel
  obtain ⟨messages, hsent, hfit, -⟩ := sent_lengths_fit hparse htells .text {}
  obtain ⟨message, hmessage⟩ := List.length_eq_one_iff.1 honce
  refine ⟨hparse, htells, message, hmessage, ?_⟩
  rcases hfit message (by rw [← List.nil_append messages, ← hmessage.symm.trans hsent]; simp) with
    hfitting | ⟨_, _, _, hcommand, -⟩
  · exact hfitting
  · cases hcommand

/-- A host of version 4, asked for with a prefix of 33 bits: no reply has to come for the message to
be sent. -/
theorem getRoute_overlong :
    parse? ["route", "get", "10.0.0.1", "--prefix", "33"] =
      some (.getRoute (.v4 0x0a000001) (some 33) none) ∧
    ∃ message ∈ (({} : Connection).run
        (execute .text (.getRoute (.v4 0x0a000001) (some 33) none))).2.kernel.sent,
      Heads message .inet 33 ∧ ¬LengthFits .inet 33 := by
  refine ⟨by decide +kernel, ?_⟩
  obtain ⟨first, rest, hsent, hround, -⟩ :=
    exists_sent_of_answerRoute (.v4 0x0a000001) (some 33) none {}
  have hcan : ({} : Connection).CanAsk ⟨target (.v4 0x0a000001) (some 33), none⟩ :=
    ⟨rfl, _, Draft.edited_of_room (RouteQuery.writes _) (by decide)⟩
  obtain ⟨message, hmessage⟩ := List.exists_mem_of_ne_nil _ (hround.sent_of_canAsk hcan)
  refine ⟨message, ?_, (hround.asks message hmessage).heads, fun hfits => ?_⟩
  · rw [execute, run_bind_return, hsent]
    exact List.mem_append_right _ (List.mem_append_left _ hmessage)
  · exact absurd (hfits.1 rfl) (by decide)

end CommandLine

end RouteControl
