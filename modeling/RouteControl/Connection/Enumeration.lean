import RouteControl.Connection
import RouteControl.Record.Address
import RouteControl.Record.Link
import RouteControl.Record.Route

/-!
# Enumeration

All links, all addresses, and the names of all links.  Nothing is told of a response that is
refused: the entries are handed on once the whole response has been checked.

A `Visit` is a call that hands entries to a callback.  What the callback did stays done even if the
call fails later, as with the connection itself.
-/

namespace RouteControl

/-- How entries of one kind are asked for and read.  Without a whole header of the family there is
no entry. -/
structure RecordKind (α : Type) where
  decode? : Bytes → Option α
  headerSize : Nat
  dumpHeader : Bytes
  isSome_decode? : ∀ payload, (decode? payload).isSome ↔ headerSize ≤ payload.length

namespace RecordKind

def link : RecordKind Link :=
  ⟨Link.decode?, LinkHeader.size, Link.dumpHeader, Link.isSome_decode?⟩

def address : RecordKind InterfaceAddress :=
  ⟨InterfaceAddress.decode?, AddressHeader.size, InterfaceAddress.dumpHeader,
    InterfaceAddress.isSome_decode?⟩

def route : RecordKind Route :=
  ⟨Route.decode?, RouteHeader.size, Route.dumpHeader, Route.isSome_decode?⟩

end RecordKind

namespace Connection

/-- A call beside a state of the caller's own. -/
abbrev Visit (σ α : Type) := EStateM Error (Connection × σ) α

namespace Visit

variable {α σ : Type}

def run (visit : Visit σ α) (c : Connection) (state : σ) : Except Error α × Connection × σ :=
  match EStateM.run visit (c, state) with
  | .ok a after => (.ok a, after)
  | .error e after => (.error e, after)

def ofCall (call : Call α) : Visit σ α := fun (c, state) =>
  match call c with
  | .ok a c => .ok a (c, state)
  | .error e c => .error e (c, state)

def hand (callback : σ → α → σ) (entry : α) : Visit σ Unit :=
  modify fun (c, state) => (c, callback state entry)

end Visit

/-- Hands the entries in some payloads to a callback, one after the other.  A payload that does not
decode is left out. -/
def handEach {α σ : Type} (decode? : Bytes → Option α) (callback : σ → α → σ) :
    List Bytes → Visit σ Unit
  | [] => return
  | payload :: rest => do
    if let some entry := decode? payload then
      Visit.hand callback entry
    handEach decode? callback rest

/-- Hands all entries of one kind to a callback, asked for by one type of message and expected in
another. -/
def dumpEach {α σ : Type} (kind : RecordKind α) (type : MessageType) (expected : MessageKind)
    (callback : σ → α → σ) : Visit σ Unit := do
  let d ← Visit.ofCall (compose (dumpDraft type) (Draft.append kind.dumpHeader))
  let response ← Visit.ofCall (request d)
  let payloads ← Visit.ofCall (ofExcept (response.dumpPayloads expected))
  handEach kind.decode? callback payloads

def dumpInto {α σ : Type} (kind : RecordKind α) (type : MessageType) (expected : MessageKind)
    (callback : σ → α → σ) (state : σ) : Call σ := fun c =>
  match (dumpEach kind type expected callback).run c state with
  | (.ok (), c, state) => .ok state c
  | (.error e, c, _) => .error e c

def dumpRecords {α : Type} (kind : RecordKind α) (type : MessageType) (expected : MessageKind) :
    Call (List α) := do
  return (← dumpInto kind type expected Array.push #[]).toList

def links : Call (List Link) := dumpRecords .link .getLink .newLink

def addresses : Call (List InterfaceAddress) := dumpRecords .address .getAddress .newAddress

/-- Names of links by their numbers, in ascending order of the numbers. -/
abbrev LinkNames := List (UInt32 × String)

/-- The names with one more: a later name for a number takes the place of an earlier one. -/
def LinkNames.insert (index : UInt32) (name : String) : LinkNames → LinkNames
  | [] => [(index, name)]
  | (i, n) :: rest =>
    if index < i then (index, name) :: (i, n) :: rest
    else if index = i then (index, name) :: rest
    else (i, n) :: insert index name rest

/-- The names after one more link; a link without a name changes nothing. -/
def LinkNames.absorb (names : LinkNames) (l : Link) : LinkNames :=
  match l.name with
  | some name => names.insert l.index name
  | none => names

def linkNames : Call LinkNames := dumpInto .link .getLink .newLink LinkNames.absorb []

end Connection

end RouteControl
