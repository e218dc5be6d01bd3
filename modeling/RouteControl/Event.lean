import RouteControl.Message
import RouteControl.Record.Address
import RouteControl.Record.Link
import RouteControl.Record.Route

/-!
# Events

A notification tells that a link, an address or a route is there (anew, or changed), or that it is
gone.  Messages of other kinds, and those that do not decode, are no events.
-/

namespace RouteControl

inductive Change where
  | added
  | deleted
  deriving DecidableEq, Repr

inductive Subject where
  | link (l : Link)
  | address (a : InterfaceAddress)
  | route (r : Route)
  deriving DecidableEq, Repr

structure Event where
  change : Change
  subject : Subject
  deriving DecidableEq, Repr

namespace Event

def decode? (kind : MessageKind) (payload : Bytes) : Option Event :=
  match kind with
  | .newLink => (Link.decode? payload).map fun l => ⟨.added, .link l⟩
  | .deleteLink => (Link.decode? payload).map fun l => ⟨.deleted, .link l⟩
  | .newAddress => (InterfaceAddress.decode? payload).map fun a => ⟨.added, .address a⟩
  | .deleteAddress => (InterfaceAddress.decode? payload).map fun a => ⟨.deleted, .address a⟩
  | .newRoute => (Route.decode? payload).map fun r => ⟨.added, .route r⟩
  | .deleteRoute => (Route.decode? payload).map fun r => ⟨.deleted, .route r⟩
  | _ => none

def ofMessage? (m : Message) : Option Event := decode? m.kind m.payload

def isAdded (e : Event) : Bool := e.change = .added

def isDeleted (e : Event) : Bool := !e.isAdded

def interface? (e : Event) : Option UInt32 :=
  match e.subject with
  | .link l => some l.index
  | .address a => some a.index
  | .route r => r.outputInterface

def action (e : Event) : String := if e.isAdded then "new" else "del"

def name (e : Event) : String :=
  match e.change, e.subject with
  | .added, .link _ => "NewLink"
  | .deleted, .link _ => "DelLink"
  | .added, .address _ => "NewAddress"
  | .deleted, .address _ => "DelAddress"
  | .added, .route _ => "NewRoute"
  | .deleted, .route _ => "DelRoute"

end Event

/-- What is done with events: a state, changed by each event and the time when it came, and the wish
to get no more. -/
structure Handler (σ : Type) where
  onEvent : Duration → Event → σ → σ
  isClosed : σ → Bool

namespace Handler

/-- The handler that tells links, addresses and routes apart. -/
def ofCallbacks {σ : Type} (onLink : Duration → Change → Link → σ → σ)
    (onAddress : Duration → Change → InterfaceAddress → σ → σ)
    (onRoute : Duration → Change → Route → σ → σ) (isClosed : σ → Bool) : Handler σ where
  onEvent now e state :=
    match e.subject with
    | .link l => onLink now e.change l state
    | .address a => onAddress now e.change a state
    | .route r => onRoute now e.change r state
  isClosed

/-- Hands on the event that a message tells of, if it tells of one, and counts it. -/
def take {σ : Type} (h : Handler σ) (now : Duration) (counted : Nat × σ) (m : Message) : Nat × σ :=
  match Event.ofMessage? m with
  | some e => (counted.1 + 1, h.onEvent now e counted.2)
  | none => counted

/-- Hands on the events in a datagram, up to the first message that is not well formed; tells how
many there are. -/
def dispatch {σ : Type} (h : Handler σ) (now : Duration) (datagram : Bytes) (state : σ) : Nat × σ :=
  (Message.read datagram).messages.foldl (h.take now) (0, state)

end Handler

end RouteControl
