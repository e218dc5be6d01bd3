import RouteControl.Proofs.Bytes.Text
import RouteControl.Proofs.Record.Fields
import RouteControl.Record.Link

/-!
# Names of links

A link bears the text of the last attribute that is a name (`Link.foldl_absorb`).  Where this one is
no text the link has no name, whatever names stand in front of it, so that one more name that is no
text takes the name away unless another comes behind it (`lastOf?_inserted`).  The fields of routes
and of addresses stay as they are in such a case (`name_of_last_attribute`).
-/

namespace RouteControl

open Bytes Attribute

namespace Bytes

/-! ## Fields at the front -/

private theorem take_drop_append_left {front : Bytes} {offset width : Nat}
    (h : offset + width ≤ front.length) (rest : Bytes) :
    ((front ++ rest).drop offset).take width = (front.drop offset).take width := by
  have hroom : width ≤ (front.drop offset).length := by
    rw [List.length_drop]
    omega
  rw [List.drop_append_of_le_length (Nat.le_of_add_right_le h),
    List.take_append_of_le_length hroom]

private theorem byteAt_append_left {front : Bytes} {offset : Nat} (h : offset < front.length)
    (rest : Bytes) : byteAt (front ++ rest) offset = byteAt front offset := by
  rw [byteAt, byteAt, List.getD_eq_getElem?_getD, List.getD_eq_getElem?_getD,
    List.getElem?_append_left h]

end Bytes

/-! ## The last attribute of a kind -/

namespace Attribute

variable {kind : UInt16} {a : Attribute} {attributes front back : List Attribute}
  {α : Type} {decode? : Bytes → Option α}

/-- The last attribute of one kind, whatever its flags and its payload. -/
def lastOf? (kind : UInt16) (attributes : List Attribute) : Option Attribute :=
  attributes.reverse.find? fun a => a.kind = kind

theorem lastOf?_append (front back : List Attribute) :
    lastOf? kind (front ++ back) = (lastOf? kind back).or (lastOf? kind front) := by
  rw [lastOf?, List.reverse_append, List.find?_append]
  rfl

theorem lastOf?_cons (a : Attribute) (attributes : List Attribute) :
    lastOf? kind (a :: attributes) =
      (lastOf? kind attributes).or (if a.kind = kind then some a else none) := by
  rw [lastOf?, List.reverse_cons, List.find?_append, List.find?_singleton]
  simp only [decide_eq_true_eq]
  rfl

theorem lastOf?_eq_none_iff : lastOf? kind attributes = none ↔ ∀ a ∈ attributes, a.kind ≠ kind := by
  simp [lastOf?]

theorem kind_of_lastOf?_eq_some (h : lastOf? kind attributes = some a) :
    a ∈ attributes ∧ a.kind = kind := by
  unfold lastOf? at h
  exact ⟨List.mem_reverse.1 (List.mem_of_find?_eq_some h), by simpa using List.find?_some h⟩

theorem lastOf?_inserted (ha : a.kind = kind) :
    lastOf? kind (front ++ a :: back) =
      if ∃ b ∈ back, b.kind = kind then lastOf? kind (front ++ back) else some a := by
  rw [lastOf?_append, lastOf?_append, lastOf?_cons, if_pos ha]
  cases hback : lastOf? kind back with
  | none =>
      have hother : ¬∃ b ∈ back, b.kind = kind := by
        rintro ⟨b, hb, hkind⟩
        exact lastOf?_eq_none_iff.1 hback b hb hkind
      rw [if_neg hother]
      rfl
  | some b =>
      rw [if_pos ⟨b, kind_of_lastOf?_eq_some hback⟩]
      rfl

theorem lastValue?_eq_none_iff :
    lastValue? kind decode? attributes = none ↔
      ∀ a ∈ attributes, a.kind = kind → decode? a.payload = none := by
  simp [lastValue?, value?]

/-- The last attribute of the kind holds the last value, if it holds one. -/
theorem lastValue?_of_lastOf? (h : lastOf? kind attributes = some a) {value : α}
    (hvalue : decode? a.payload = some value) :
    lastValue? kind decode? attributes = some value := by
  induction attributes with
  | nil => cases h
  | cons first rest ih =>
      rw [lastOf?_cons] at h
      rw [lastValue?_cons]
      cases hrest : lastOf? kind rest with
      | some b =>
          rw [hrest, Option.some_or] at h
          rw [ih (hrest.trans h), Option.some_or]
      | none =>
          rw [hrest, Option.none_or, Option.ite_none_right_eq_some] at h
          obtain ⟨hkind, hfirst⟩ := h
          cases hfirst
          have hnone : lastValue? kind decode? rest = none :=
            lastValue?_eq_none_iff.2 fun b hb hsame =>
              absurd hsame (lastOf?_eq_none_iff.1 hrest b hb)
          rw [hnone, Option.none_or, value?, if_pos hkind, hvalue]

/-- What the last attribute of the kind holds is the last value of the kind, but for the case that
it holds none and one in front of it does. -/
theorem lastOf?_bind_eq_lastValue?_iff :
    (lastOf? kind attributes).bind (fun a => decode? a.payload) =
        lastValue? kind decode? attributes ↔
      (∃ a, lastOf? kind attributes = some a ∧ (decode? a.payload).isSome) ∨
        ∀ a ∈ attributes, a.kind = kind → decode? a.payload = none := by
  rw [← lastValue?_eq_none_iff]
  cases hlast : lastOf? kind attributes with
  | none =>
      have hnone : lastValue? kind decode? attributes = none :=
        lastValue?_eq_none_iff.2 fun a ha hkind =>
          absurd hkind (lastOf?_eq_none_iff.1 hlast a ha)
      simp [hnone]
  | some a =>
      rw [Option.bind_some]
      cases hvalue : decode? a.payload with
      | none =>
          constructor
          · intro hnone
            exact .inr hnone.symm
          · rintro (⟨b, hb, hsome⟩ | hnone)
            · cases hb
              rw [hvalue] at hsome
              cases hsome
            · exact hnone.symm
      | some value =>
          rw [lastValue?_of_lastOf? hlast hvalue]
          exact iff_of_true rfl (.inl ⟨a, rfl, by rw [hvalue]; rfl⟩)

end Attribute

/-! ## Links -/

/-- The header is told by its own bytes, whatever comes behind them. -/
private theorem LinkHeader.decode_append_left {header : Bytes} (hsize : header.length = size)
    (rest : Bytes) : decode (header ++ rest) = decode header := by
  have hshort : ¬header.length < size := Nat.not_lt_of_le (Nat.le_of_eq hsize.symm)
  have hlong : ¬(header ++ rest).length < size := by
    rw [List.length_append]
    omega
  unfold size at hsize
  rw [decode, decode, if_neg hlong, if_neg hshort,
    byteAt_append_left (by omega) rest,
    uint16At_congr (take_drop_append_left (by omega) rest),
    uint32At_congr (take_drop_append_left (by omega : 4 + 4 ≤ header.length) rest),
    uint32At_congr (take_drop_append_left (by omega : 8 + 4 ≤ header.length) rest),
    uint32At_congr (take_drop_append_left (by omega : 12 + 4 ≤ header.length) rest)]

theorem LinkHeader.decode_bytes (h : LinkHeader) : decode h.bytes = .ok h := by
  have htype : h.bytes.uint16At 2 = h.type := by
    simp only [bytes, List.append_assoc]
    exact uint16At_append [h.family, 0] h.type _
  have hindex : h.bytes.uint32At 4 = h.index.toUInt32 := by
    simp only [bytes, List.append_assoc]
    exact uint32At_append ([h.family, 0] ++ ofUInt16 h.type) h.index.toUInt32 _
  have hflags : h.bytes.uint32At 8 = h.flags := by
    simp only [bytes, List.append_assoc]
    exact uint32At_append ([h.family, 0] ++ ofUInt16 h.type ++ ofUInt32 h.index.toUInt32) h.flags _
  have hchange : h.bytes.uint32At 12 = h.change := by
    simp only [bytes, List.append_assoc]
    exact uint32At_append ([h.family, 0] ++ ofUInt16 h.type ++ ofUInt32 h.index.toUInt32 ++
      ofUInt32 h.flags) h.change []
  rw [decode, if_neg (by simp), htype, hindex, hflags, hchange]
  simp [bytes, byteAt]

namespace Link

theorem absorb_eq (l : Link) (a : Attribute) :
    l.absorb a =
      { l with name := if a.kind = LinkAttribute.name then a.payload.text? else l.name } := by
  unfold absorb
  split <;> rfl

theorem foldl_absorb (attributes : List Attribute) (l : Link) :
    attributes.foldl absorb l =
      { l with
        name := ((lastOf? LinkAttribute.name attributes).map fun a => a.payload.text?).getD l.name }
    := by
  induction attributes generalizing l with
  | nil => rfl
  | cons a rest ih =>
      rw [List.foldl_cons, ih, absorb_eq, lastOf?_cons]
      cases lastOf? LinkAttribute.name rest with
      | some b => rfl
      | none =>
          by_cases hkind : a.kind = LinkAttribute.name
          · rw [if_pos hkind, if_pos hkind]
            rfl
          · rw [if_neg hkind, if_neg hkind]
            rfl

/-- The record that a header and attributes tell of. -/
def ofAttributes (h : LinkHeader) (attributes : List Attribute) : Link :=
  { ofHeader h with
    name := (lastOf? LinkAttribute.name attributes).bind fun a => a.payload.text? }

theorem decode?_of_decode {payload : Bytes} {h : LinkHeader}
    (hheader : LinkHeader.decode payload = .ok h) :
    decode? payload = some (ofAttributes h (walk (payload.drop LinkHeader.size))) := by
  have hnamed : ∀ attributes : List Attribute,
      attributes.foldl absorb (ofHeader h) = ofAttributes h attributes := by
    intro attributes
    rw [foldl_absorb, ofAttributes]
    cases lastOf? LinkAttribute.name attributes with
    | none => rfl
    | some a => rfl
  rw [decode?, record?_of_decode hheader, hnamed]

theorem decode?_append {header : Bytes} (hsize : header.length = LinkHeader.size) :
    ∃ h, ∀ rest, decode? (header ++ rest) = some (ofAttributes h (walk rest)) := by
  obtain ⟨h, hheader⟩ : ∃ h, LinkHeader.decode header = .ok h :=
    ⟨_, if_neg (Nat.not_lt_of_le (Nat.le_of_eq hsize.symm))⟩
  refine ⟨h, fun rest => ?_⟩
  rw [← LinkHeader.decode_append_left hsize rest] at hheader
  rw [decode?_of_decode hheader, List.drop_left' hsize]

theorem decode?_bytes_append (h : LinkHeader) (rest : Bytes) :
    decode? (h.bytes ++ rest) = some (ofAttributes h (walk rest)) := by
  have hheader : LinkHeader.decode (h.bytes ++ rest) = .ok h := by
    rw [LinkHeader.decode_append_left h.length_bytes, LinkHeader.decode_bytes]
  rw [decode?_of_decode hheader, List.drop_left' h.length_bytes]

/-- One more name that is no text takes the name away, unless a name stands behind it. -/
theorem ofAttributes_inserted {a : Attribute} (hkind : a.kind = LinkAttribute.name)
    (htext : a.payload.text? = none) (h : LinkHeader) (front back : List Attribute) :
    ofAttributes h (front ++ a :: back) =
      if ∃ b ∈ back, b.kind = LinkAttribute.name then ofAttributes h (front ++ back)
      else { ofAttributes h (front ++ back) with name := none } := by
  unfold ofAttributes
  rw [lastOf?_inserted hkind]
  split
  · rfl
  · rw [Option.bind_some, htext]

end Link

/-- The attributes of the second bytes are those of the first ones, and one more in front of the
last ones of them. -/
def AddsBefore (back : List Attribute) (a : Attribute) (first second : Bytes) : Prop :=
  ∃ front, walk first = front ++ back ∧ walk second = front ++ a :: back

/-- A payload that has room for a header is decoded as a link, and the link has the name that the
last attribute of this kind tells: none if this one is no text, though one in front of it may be.
One more attribute that holds nothing of its kind changes no route and no address; of a link it
takes the name away, if it counts as the last name. -/
theorem name_of_last_attribute {payload : Bytes} (hroom : 16 ≤ payload.length) :
    let attributes := walk (payload.drop 16)
    ∃ l, Link.decode? payload = some l ∧
      l.name = (lastOf? LinkAttribute.name attributes).bind (fun a => a.payload.text?) ∧
      (l.name = lastValue? LinkAttribute.name text? attributes ↔
        (∃ a, lastOf? LinkAttribute.name attributes = some a ∧ a.payload.text?.isSome) ∨
          ∀ a ∈ attributes, a.kind = LinkAttribute.name → a.payload.text? = none) ∧
      (∀ bytes text, text? bytes = some text ↔ untilZero bytes = ofText text) ∧
      (∀ second back a, AddsBefore back a (payload.drop 16) second →
        a.kind = LinkAttribute.name → a.payload.text? = none →
        Link.decode? (payload.take 16 ++ second) =
          if ∃ b ∈ back, b.kind = LinkAttribute.name then some l
          else some { l with name := none }) ∧
      (∀ (h : RouteHeader) first second back a, AddsBefore back a first second →
        Route.Ignores h.family a →
        Route.decode? (h.bytes ++ second) = Route.decode? (h.bytes ++ first)) ∧
      ∀ (h : AddressHeader) first second back a, AddsBefore back a first second →
        InterfaceAddress.Ignores h.family a →
        InterfaceAddress.decode? (h.bytes ++ second) =
          InterfaceAddress.decode? (h.bytes ++ first) := by
  intro attributes
  have hsize : (payload.take 16).length = LinkHeader.size := by
    rw [List.length_take, Nat.min_eq_left hroom]
    rfl
  obtain ⟨h, hdecode⟩ := Link.decode?_append hsize
  have hpayload := hdecode (payload.drop 16)
  rw [List.take_append_drop] at hpayload
  refine ⟨_, hpayload, rfl, lastOf?_bind_eq_lastValue?_iff, fun _ _ => text?_eq_some_iff, ?_, ?_,
    ?_⟩
  · rintro second back a ⟨front, hfirst, hsecond⟩ hkind htext
    rw [hdecode, hfirst, hsecond, Link.ofAttributes_inserted hkind htext]
    split
    · rfl
    · rfl
  · rintro h first second back a ⟨front, hfirst, hsecond⟩ hignored
    rw [Route.decode?_append_eq, Route.decode?_append_eq, hfirst, hsecond,
      Route.ofAttributes_of_rearranged (.inserted front back hignored)]
  · rintro h first second back a ⟨front, hfirst, hsecond⟩ hignored
    rw [InterfaceAddress.decode?_append, InterfaceAddress.decode?_append, hfirst, hsecond,
      InterfaceAddress.ofAttributes_of_rearranged (.inserted front back hignored)]

/-! ## A name that is lost -/

def namedHeader : LinkHeader := { index := 2 }

def ethernetName : Attribute := ⟨LinkAttribute.name, ofTerminatedText "eth0"⟩

def unreadableName : Attribute := ⟨LinkAttribute.name, [0xFF]⟩

private theorem walk_named {attributes : List Attribute} (h : ∀ a ∈ attributes, a.Fits) :
    walk ((namedHeader.bytes ++ stack [] (attributes.map bytes)).drop 16) = attributes := by
  have hrow : (namedHeader.bytes ++ stack [] (attributes.map bytes)).drop 16 =
      stack [] (attributes.map bytes) := List.drop_left' namedHeader.length_bytes
  rw [hrow, walk_stack h]

private theorem decode?_named {attributes : List Attribute} (h : ∀ a ∈ attributes, a.Fits) :
    Link.decode? (namedHeader.bytes ++ stack [] (attributes.map bytes)) =
      some (Link.ofAttributes namedHeader attributes) := by
  rw [Link.decode?_bytes_append, walk_stack h]

private theorem text?_ethernetName : ethernetName.payload.text? = some "eth0" := by decide

private theorem text?_unreadableName : unreadableName.payload.text? = none := by decide

/-- Behind its name, a name that is no text leaves a link without a name, and the last text among
the names is not what it is called. -/
theorem unreadable_name_takes_name :
    let row : List Attribute := [ethernetName, unreadableName]
    let payload : Bytes := namedHeader.bytes ++ stack [] (row.map bytes)
    walk (payload.drop 16) = row ∧
    lastValue? LinkAttribute.name text? row = some "eth0" ∧
    (Link.decode? payload).map Link.name = some none ∧
    (Link.decode? (namedHeader.bytes ++ stack [] ([ethernetName].map bytes))).map Link.name =
      some (some "eth0") := by
  intro row payload
  have hfits : ∀ a ∈ row, a.Fits := by decide
  refine ⟨walk_named hfits, by decide, ?_, ?_⟩
  · rw [decode?_named hfits]
    decide
  · rw [decode?_named (by decide)]
    decide

private theorem addsBefore_stack (front : List Attribute) {back : List Attribute} {a : Attribute}
    (h : ∀ b ∈ front ++ a :: back, b.Fits) :
    AddsBefore back a (stack [] ((front ++ back).map bytes))
      (stack [] ((front ++ a :: back).map bytes)) := by
  have hfits : ∀ b ∈ front ++ back, b.Fits := by
    intro b hb
    apply h
    rcases List.mem_append.1 hb with hb | hb
    · exact List.mem_append_left _ hb
    · exact List.mem_append_right _ (List.mem_cons_of_mem a hb)
  exact ⟨front, walk_stack hfits, walk_stack h⟩

def namedPayload : Bytes := namedHeader.bytes ++ stack [] ([ethernetName].map bytes)

/-- In front of a name, one that is no text changes nothing; behind it, it takes the name away.  No
route is changed by an octet where a number should be, and no address by one where octets of an
address should be. -/
theorem name_of_last_attribute_ethernet :
    16 ≤ namedPayload.length ∧
    ∃ l, Link.decode? namedPayload = some l ∧ l.name = some "eth0" ∧
      Link.decode? (namedHeader.bytes ++ stack [] ([unreadableName, ethernetName].map bytes)) =
        some l ∧
      Link.decode? (namedHeader.bytes ++ stack [] ([ethernetName, unreadableName].map bytes)) =
        some { l with name := none } ∧
      Route.decode? (RouteHeader.bytes { family := .inet } ++
          stack [] ([⟨RouteAttribute.table, [9]⟩].map bytes)) =
        Route.decode? (RouteHeader.bytes { family := .inet } ++ stack [] ([].map bytes)) ∧
      InterfaceAddress.decode? (AddressHeader.bytes { family := .inet } ++
          stack [] ([⟨AddressAttribute.address, [9]⟩].map bytes)) =
        InterfaceAddress.decode? (AddressHeader.bytes { family := .inet } ++
          stack [] ([].map bytes)) := by
  have hroom : 16 ≤ namedPayload.length := by decide
  obtain ⟨l, hdecode, hname, -, -, hlink, hroute, haddress⟩ := name_of_last_attribute hroom
  have hheader : namedPayload.take 16 = namedHeader.bytes :=
    List.take_left' namedHeader.length_bytes
  have hrow : namedPayload.drop 16 = stack [] ([ethernetName].map bytes) :=
    List.drop_left' namedHeader.length_bytes
  rw [hrow, hheader] at hlink
  refine ⟨hroom, l, hdecode, ?_, ?_, ?_, ?_, ?_⟩
  · have hwalk : walk (namedPayload.drop 16) = [ethernetName] := walk_named (by decide)
    rw [hname, hwalk]
    exact text?_ethernetName
  · have hfront := hlink _ [ethernetName] unreadableName (addsBefore_stack [] (by decide)) rfl
      text?_unreadableName
    rwa [if_pos ⟨ethernetName, List.mem_singleton_self _, rfl⟩] at hfront
  · have hback := hlink _ [] unreadableName (addsBefore_stack [ethernetName] (by decide)) rfl
      text?_unreadableName
    rwa [if_neg (by simp)] at hback
  · exact hroute _ _ _ [] _ (addsBefore_stack [] (by decide)) ⟨by decide, by decide⟩
  · exact haddress _ _ _ [] _ (addsBefore_stack [] (by decide))
      (by unfold InterfaceAddress.Ignores; decide)

end RouteControl
