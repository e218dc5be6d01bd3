import RouteControl.Proofs.Listener.Deliveries
import RouteControl.Proofs.Message.Kind
import RouteControl.Proofs.Message.Reader

/-!
# Dispatching datagrams

A message tells of an event just where its type is that of a notification about links, addresses or
routes, and its payload has room for the header of this family (`isUsable_iff`); the event says what
the type and the record in the payload say (`ofMessage?_eq_some_iff`).  Of any bytes, the messages
in front of the first fault are gone through to the end, and the handler is handed the event of each
that tells of one (`dispatch_eq`), so that bytes behind whole messages are dispatched as they are on
their own (`dispatch_hands_on_events`).
-/

namespace RouteControl

/-! ## The event of a message -/

namespace Change

def linkType : Change → MessageType
  | added => .newLink
  | deleted => .deleteLink

def addressType : Change → MessageType
  | added => .newAddress
  | deleted => .deleteAddress

def routeType : Change → MessageType
  | added => .newRoute
  | deleted => .deleteRoute

private theorem mem_pair_iff {α : Type} {x : α} (ofChange : Change → α) :
    x ∈ [ofChange added, ofChange deleted] ↔ ∃ change, x = ofChange change := by
  constructor
  · intro h
    rcases List.mem_pair.1 h with rfl | rfl
    · exact ⟨added, rfl⟩
    · exact ⟨deleted, rfl⟩
  · rintro ⟨change, rfl⟩
    apply List.mem_pair.2
    cases change with
    | added => exact .inl rfl
    | deleted => exact .inr rfl

end Change

namespace Event

theorem decode?_linkType (change : Change) (payload : Bytes) :
    decode? (.ofType change.linkType) payload =
      (Link.decode? payload).map fun l => ⟨change, .link l⟩ := by
  cases change <;> rfl

theorem decode?_addressType (change : Change) (payload : Bytes) :
    decode? (.ofType change.addressType) payload =
      (InterfaceAddress.decode? payload).map fun a => ⟨change, .address a⟩ := by
  cases change <;> rfl

theorem decode?_routeType (change : Change) (payload : Bytes) :
    decode? (.ofType change.routeType) payload =
      (Route.decode? payload).map fun r => ⟨change, .route r⟩ := by
  cases change <;> rfl

end Event

namespace Message

variable {m : Message} {e : Event}

/-- The event says what the message says: whether something is there or gone, and the record in the
payload. -/
inductive Tells (m : Message) : Event → Prop
  | link {change : Change} {l : Link} (htype : m.header.type = change.linkType)
      (hrecord : Link.decode? m.payload = some l) : Tells m ⟨change, .link l⟩
  | address {change : Change} {a : InterfaceAddress} (htype : m.header.type = change.addressType)
      (hrecord : InterfaceAddress.decode? m.payload = some a) : Tells m ⟨change, .address a⟩
  | route {change : Change} {r : Route} (htype : m.header.type = change.routeType)
      (hrecord : Route.decode? m.payload = some r) : Tells m ⟨change, .route r⟩

/-- A notification about links, addresses or routes whose payload has room for the header of the
family. -/
def IsUsable (m : Message) : Prop :=
  (m.header.type ∈ [MessageType.newLink, .deleteLink] ∧ 16 ≤ m.payload.length) ∨
  (m.header.type ∈ [MessageType.newAddress, .deleteAddress] ∧ 8 ≤ m.payload.length) ∨
  (m.header.type ∈ [MessageType.newRoute, .deleteRoute] ∧ 12 ≤ m.payload.length)

instance (m : Message) : Decidable m.IsUsable := by
  unfold IsUsable
  infer_instance

theorem type_eq_kind_type (m : Message) : m.header.type = m.kind.type :=
  (MessageKind.type_ofType m.header.type).symm

theorem ofMessage?_of_tells (h : m.Tells e) : Event.ofMessage? m = some e := by
  change Event.decode? (.ofType m.header.type) m.payload = some e
  cases h with
  | link htype hrecord =>
      rw [htype, Event.decode?_linkType, hrecord]
      rfl
  | address htype hrecord =>
      rw [htype, Event.decode?_addressType, hrecord]
      rfl
  | route htype hrecord =>
      rw [htype, Event.decode?_routeType, hrecord]
      rfl

theorem ofMessage?_eq_some_iff : Event.ofMessage? m = some e ↔ m.Tells e := by
  refine ⟨fun h => ?_, ofMessage?_of_tells⟩
  have htype := m.type_eq_kind_type
  unfold Event.ofMessage? at h
  cases hkind : m.kind with
  | newLink | deleteLink =>
      rw [hkind] at h htype
      obtain ⟨l, hl, rfl⟩ := Option.map_eq_some_iff.1 h
      exact .link htype hl
  | newAddress | deleteAddress =>
      rw [hkind] at h htype
      obtain ⟨a, ha, rfl⟩ := Option.map_eq_some_iff.1 h
      exact .address htype ha
  | newRoute | deleteRoute =>
      rw [hkind] at h htype
      obtain ⟨r, hr, rfl⟩ := Option.map_eq_some_iff.1 h
      exact .route htype hr
  | newRule | deleteRule | error | done | other =>
      rw [hkind] at h
      cases h

theorem isUsable_iff : m.IsUsable ↔ ∃ e, m.Tells e := by
  have hlink : m.header.type ∈ [MessageType.newLink, .deleteLink] ↔ _ :=
    Change.mem_pair_iff Change.linkType
  have haddress : m.header.type ∈ [MessageType.newAddress, .deleteAddress] ↔ _ :=
    Change.mem_pair_iff Change.addressType
  have hroute : m.header.type ∈ [MessageType.newRoute, .deleteRoute] ↔ _ :=
    Change.mem_pair_iff Change.routeType
  unfold IsUsable
  rw [hlink, haddress, hroute]
  constructor
  · rintro (⟨⟨change, htype⟩, hroom⟩ | ⟨⟨change, htype⟩, hroom⟩ | ⟨⟨change, htype⟩, hroom⟩)
    · obtain ⟨l, hl⟩ := Option.isSome_iff_exists.1 ((Link.isSome_decode? _).2 hroom)
      exact ⟨_, .link htype hl⟩
    · obtain ⟨a, ha⟩ := Option.isSome_iff_exists.1 ((InterfaceAddress.isSome_decode? _).2 hroom)
      exact ⟨_, .address htype ha⟩
    · obtain ⟨r, hr⟩ := Option.isSome_iff_exists.1 ((Route.isSome_decode? _).2 hroom)
      exact ⟨_, .route htype hr⟩
  · rintro ⟨e, he⟩
    cases he with
    | link htype hrecord =>
        have hroom := (Link.isSome_decode? _).1 (Option.isSome_of_eq_some hrecord)
        exact .inl ⟨⟨_, htype⟩, hroom⟩
    | address htype hrecord =>
        have hroom := (InterfaceAddress.isSome_decode? _).1 (Option.isSome_of_eq_some hrecord)
        exact .inr (.inl ⟨⟨_, htype⟩, hroom⟩)
    | route htype hrecord =>
        have hroom := (Route.isSome_decode? _).1 (Option.isSome_of_eq_some hrecord)
        exact .inr (.inr ⟨⟨_, htype⟩, hroom⟩)

def told (messages : List Message) : List Event := messages.filterMap Event.ofMessage?

theorem forall₂_told (messages : List Message) :
    List.Forall₂ Tells (messages.filter IsUsable) (told messages) := by
  induction messages with
  | nil => exact .nil
  | cons m rest ih =>
      unfold told
      by_cases husable : m.IsUsable
      · obtain ⟨e, he⟩ := isUsable_iff.1 husable
        rw [List.filter_cons, if_pos (decide_eq_true husable),
          List.filterMap_cons_some (ofMessage?_of_tells he)]
        exact .cons he ih
      · have hnone : Event.ofMessage? m = none := by
          apply Option.eq_none_iff_forall_ne_some.2
          intro e he
          exact husable (isUsable_iff.2 ⟨e, ofMessage?_eq_some_iff.1 he⟩)
        rw [List.filter_cons, if_neg (by simpa using husable), List.filterMap_cons_none hnone]
        exact ih

/-- What a reader yields of some bytes before the first time that it does not yield a message. -/
structure LiesInFront (messages : List Message) (bytes : Bytes) : Prop where
  nth_lt : ∀ i (hi : i < messages.length), nth i bytes = some (.ok messages[i])
  nth_length : ∀ m, nth messages.length bytes ≠ some (.ok m)

theorem liesInFront_read (bytes : Bytes) : LiesInFront (read bytes).messages bytes where
  nth_lt := by
    intro i hi
    have hlt : i < ((read bytes).messages.map (Except.ok (ε := Error))).length := by
      rwa [List.length_map]
    rw [nth_eq, yielded, List.getElem?_append_left hlt, List.getElem?_map,
      List.getElem?_eq_getElem hi]
    rfl
  nth_length := by
    intro m h
    have hle : ((read bytes).messages.map (Except.ok (ε := Error))).length ≤
        (read bytes).messages.length :=
      Nat.le_of_eq (List.length_map _)
    rw [nth_eq, yielded, List.getElem?_append_right hle, List.getElem?_map] at h
    obtain ⟨length, -, herror⟩ := Option.map_eq_some_iff.1 h
    cases herror

end Message

/-! ## Datagrams -/

namespace Handler

variable {σ : Type} (h : Handler σ) (now : Duration) (state : σ)

theorem dispatch_eq (datagram : Bytes) :
    h.dispatch now datagram state =
      let events := Message.told (Message.read datagram).messages
      (events.length, Listener.take h now events state) := by
  rw [dispatch, foldl_take, Nat.zero_add]
  rfl

theorem dispatch_encode_append {records : List Script.Record} (hfits : ∀ r ∈ records, r.Fits)
    (seq : UInt32) (tail : Bytes) :
    h.dispatch now (records.flatMap (·.encode seq) ++ tail) state =
      let events := Message.told (records.map (·.message seq))
      let behind := h.dispatch now tail (Listener.take h now events state)
      (events.length + behind.1, behind.2) := by
  simp only [dispatch_eq, Script.Record.read_encode_append hfits, Message.told,
    List.filterMap_append, List.length_append, Listener.take, List.foldl_append]

theorem dispatch_encode {records : List Script.Record} (hfits : ∀ r ∈ records, r.Fits)
    (seq : UInt32) :
    h.dispatch now (records.flatMap (·.encode seq)) state =
      let events := Message.told (records.map (·.message seq))
      (events.length, Listener.take h now events state) := by
  have hbehind := h.dispatch_encode_append now state hfits seq []
  rw [List.append_nil] at hbehind
  simp only [hbehind, dispatch_eq, Message.read_nil]
  rfl

section Callbacks

variable (onLink : Duration → Change → Link → σ → σ)
  (onAddress : Duration → Change → InterfaceAddress → σ → σ)
  (onRoute : Duration → Change → Route → σ → σ)

/-- What a message comes to where links, addresses and routes are told apart: a call of the one
callback for its type, with the record in the payload. -/
inductive Calls (now : Duration) (m : Message) : (σ → σ) → Prop
  | link {change : Change} {l : Link} (htype : m.header.type = change.linkType)
      (hrecord : Link.decode? m.payload = some l) : Calls now m (onLink now change l)
  | address {change : Change} {a : InterfaceAddress} (htype : m.header.type = change.addressType)
      (hrecord : InterfaceAddress.decode? m.payload = some a) :
      Calls now m (onAddress now change a)
  | route {change : Change} {r : Route} (htype : m.header.type = change.routeType)
      (hrecord : Route.decode? m.payload = some r) : Calls now m (onRoute now change r)

variable {onLink onAddress onRoute}

theorem calls_of_tells (isClosed : σ → Bool) {now : Duration} {m : Message} {e : Event}
    (he : m.Tells e) :
    Calls onLink onAddress onRoute now m
      ((ofCallbacks onLink onAddress onRoute isClosed).onEvent now e) := by
  cases he with
  | link htype hrecord => exact .link htype hrecord
  | address htype hrecord => exact .address htype hrecord
  | route htype hrecord => exact .route htype hrecord

theorem forall₂_calls (isClosed : σ → Bool) {now : Duration} {messages : List Message}
    {events : List Event} (htells : List.Forall₂ Message.Tells messages events) :
    List.Forall₂ (Calls onLink onAddress onRoute now) messages
      (events.map ((ofCallbacks onLink onAddress onRoute isClosed).onEvent now)) := by
  apply List.forall₂_map_right_iff.2
  exact htells.imp fun _ _ he => calls_of_tells isClosed he

end Callbacks

/-- Of any datagram, each message that a reader yields in front of the first fault is looked at: a
handler is handed the event of each that is a notification with room for its header, once and in
order, and nothing for any other, and as many are counted.  A handler made of callbacks has just one
of them called for each.  Behind records that are laid out, any bytes are dispatched as they are
alone. -/
theorem dispatch_hands_on_events {σ : Type} (h : Handler σ) (now : Duration) (state : σ) :
    (∀ datagram, ∃ messages events, Message.LiesInFront messages datagram ∧
      List.Forall₂ Message.Tells (messages.filter Message.IsUsable) events ∧
      h.dispatch now datagram state = (events.length, Listener.take h now events state)) ∧
    (∀ onLink onAddress onRoute isClosed, h = ofCallbacks onLink onAddress onRoute isClosed →
      ∀ datagram, ∃ messages calls, Message.LiesInFront messages datagram ∧
        List.Forall₂ (Calls onLink onAddress onRoute now) (messages.filter Message.IsUsable)
          calls ∧
        h.dispatch now datagram state =
          (calls.length, calls.foldl (fun s call => call s) state)) ∧
    ∀ {records : List Script.Record}, (∀ r ∈ records, r.Fits) → ∀ seq,
      ∃ events,
        List.Forall₂ Message.Tells ((records.map (·.message seq)).filter Message.IsUsable)
          events ∧
        h.dispatch now (records.flatMap (·.encode seq)) state =
          (events.length, Listener.take h now events state) ∧
        ∀ tail, h.dispatch now (records.flatMap (·.encode seq) ++ tail) state =
          let front := h.dispatch now (records.flatMap (·.encode seq)) state
          let behind := h.dispatch now tail front.2
          (front.1 + behind.1, behind.2) := by
  refine ⟨fun datagram => ?_, ?_, fun hfits seq => ?_⟩
  · exact ⟨_, _, Message.liesInFront_read datagram, Message.forall₂_told _,
      h.dispatch_eq now state datagram⟩
  · rintro onLink onAddress onRoute isClosed rfl datagram
    have htells := Message.forall₂_told (Message.read datagram).messages
    refine ⟨_, _, Message.liesInFront_read datagram, forall₂_calls isClosed htells, ?_⟩
    rw [dispatch_eq, List.length_map, List.foldl_map]
    rfl
  · refine ⟨_, Message.forall₂_told _, h.dispatch_encode now state hfits seq, fun tail => ?_⟩
    rw [dispatch_encode_append _ _ _ hfits, dispatch_encode _ _ _ hfits]

def mixedRecords : List Script.Record :=
  [{ type := .newLink, flags := 0, payload := Bytes.zeros 15 },
    { type := .newRule, flags := 0, payload := Bytes.zeros 16 },
    { type := .deleteAddress, flags := 0, payload := Bytes.zeros 8 }]

def noting : Handler (List Event) where
  onEvent _ e events := events ++ [e]
  isClosed _ := false

/-- Behind the records lies a header whose length does not even count itself; only the address is
handed on. -/
theorem dispatch_mixedRecords :
    (∀ r ∈ mixedRecords, r.Fits) ∧
    ∃ a, InterfaceAddress.decode? (Bytes.zeros 8) = some a ∧
      noting.dispatch .zero (mixedRecords.flatMap (·.encode 9) ++ Bytes.zeros 16) [] =
        (1, [⟨.deleted, .address a⟩]) := by
  have hfits : ∀ r ∈ mixedRecords, r.Fits := by decide
  have husable : (mixedRecords.map (·.message 9)).filter Message.IsUsable =
      [⟨⟨24, .deleteAddress, 0, 9, 0⟩, Bytes.zeros 8⟩] := by decide
  have htail : noting.dispatch .zero (Bytes.zeros 16) = (0, ·) := by
    funext state
    rw [dispatch_eq, Message.read_of_faulty rfl]
    rfl
  obtain ⟨-, -, hrecords⟩ := dispatch_hands_on_events noting .zero []
  obtain ⟨events, htells, hfront, happend⟩ := hrecords hfits 9
  rw [husable] at htells
  obtain ⟨e, rest, he, hrest, rfl⟩ := List.forall₂_cons_left_iff.1 htells
  obtain rfl := List.forall₂_nil_left_iff.1 hrest
  refine ⟨hfits, ?_⟩
  cases he with
  | @address change a htype hrecord =>
      obtain rfl : change = .deleted := by
        cases change
        · cases htype
        · rfl
      refine ⟨a, hrecord, ?_⟩
      rw [happend, htail, hfront]
      rfl
  | @link change l htype => cases change <;> cases htype
  | @route change r htype => cases change <;> cases htype

end Handler

end RouteControl
