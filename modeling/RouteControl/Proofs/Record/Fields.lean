import RouteControl.Proofs.Attribute.Value
import RouteControl.Proofs.Request.RouteMessage
import RouteControl.Record.Address

/-!
# Fields of records

The payload of a message about a route or an address is decoded just where it starts with a header
(`RouteHeader.decode_eq_ok_iff`, `AddressHeader.decode_eq_ok_iff`).  The record then holds what the
header says and, for each kind of attribute, the last value of this kind (`Route.foldl_absorb`,
`InterfaceAddress.foldl_absorb`).  So it stays the same where attributes without a value are put in,
or neighbours of different kinds change places (`records_of_last_values`).
-/

namespace RouteControl

open Bytes Attribute

/-! ## Numbers in bytes -/

namespace Bytes

private theorem ofLittleEndian_lt (bytes : Bytes) : ofLittleEndian bytes < 256 ^ bytes.length := by
  induction bytes with
  | nil => exact Nat.one_pos
  | cons b rest ih =>
      have hb := b.toNat_lt
      rw [ofLittleEndian, List.length_cons, Nat.pow_succ]
      omega

private theorem ofUInt32_uint32At {bytes : Bytes} {offset : Nat} (h : offset + 4 ≤ bytes.length) :
    ofUInt32 (uint32At bytes offset) = (bytes.drop offset).take 4 := by
  have hfour : ((bytes.drop offset).take 4).length = 4 := by
    rw [List.length_take, List.length_drop]
    omega
  have hlt := ofLittleEndian_lt ((bytes.drop offset).take 4)
  have hsame := littleEndian_ofLittleEndian ((bytes.drop offset).take 4)
  rw [hfour] at hlt hsame
  rw [ofUInt32, uint32At, UInt32.toNat_ofNat_of_lt' hlt, hsame]

private theorem take_eq_map_byteAt {bytes : Bytes} {n : Nat} (h : n ≤ bytes.length) :
    bytes.take n = (List.range n).map bytes.byteAt := by
  apply List.ext_getElem
  · rw [List.length_take_of_le h, List.length_map, List.length_range]
  · intro i hi _
    rw [List.length_take_of_le h] at hi
    rw [List.getElem_take, List.getElem_map, List.getElem_range, byteAt,
      List.getD_eq_getElem?_getD, List.getElem?_eq_getElem (Nat.lt_of_lt_of_le hi h),
      Option.getD_some]

/-- Bytes, a word behind them, and the rest. -/
private theorem eq_map_byteAt_append {bytes : Bytes} {n : Nat} (h : n + 4 ≤ bytes.length) :
    bytes = (List.range n).map bytes.byteAt ++ ofUInt32 (uint32At bytes n) ++
      bytes.drop (n + 4) := by
  rw [← take_eq_map_byteAt (Nat.le_of_add_right_le h), ofUInt32_uint32At h, List.append_assoc,
    ← List.drop_drop, List.take_append_drop, List.take_append_drop]

private theorem bigEndian_ofBigEndian (bytes : Bytes) :
    bigEndian bytes.length (ofBigEndian bytes) = bytes := by
  have hback := littleEndian_ofLittleEndian bytes.reverse
  rw [List.length_reverse] at hback
  rw [bigEndian, ofBigEndian, hback, List.reverse_reverse]

private theorem ofBigEndian_lt (bytes : Bytes) : ofBigEndian bytes < 256 ^ bytes.length := by
  have hlt := ofLittleEndian_lt bytes.reverse
  rwa [List.length_reverse] at hlt

theorem isSome_uint32? (bytes : Bytes) : (uint32? bytes).isSome ↔ bytes.length = 4 := by
  rw [uint32?, Option.isSome_ite]

theorem uint32?_eq_some_iff {bytes : Bytes} {word : UInt32} :
    uint32? bytes = some word ↔ bytes = ofUInt32 word := by
  constructor
  · intro hword
    rw [uint32?, Option.ite_none_right_eq_some] at hword
    obtain ⟨hfour, hword⟩ := hword
    have hback : ofUInt32 (uint32At bytes 0) = (bytes.drop 0).take 4 :=
      ofUInt32_uint32At (Nat.le_of_eq hfour.symm)
    rw [List.drop_zero, List.take_of_length_le (Nat.le_of_eq hfour)] at hback
    rw [← hback, Option.some.inj hword]
  · rintro rfl
    exact uint32?_ofUInt32 word

end Bytes

/-! ## Headers and what is behind them -/

private theorem decode_eq_ok_iff_of_read {η : Type} {decode : Bytes → Except Error η}
    {bytes : η → Bytes} {size : Nat} {e : Error} {payload : Bytes} {found h : η}
    (hdecode : decode payload = if payload.length < size then .error e else .ok found)
    (hread : size ≤ payload.length → ∃ rest, payload = bytes found ++ rest)
    (happend : ∀ h rest, decode (bytes h ++ rest) = .ok h) :
    decode payload = .ok h ↔ ∃ rest, payload = bytes h ++ rest := by
  constructor
  · intro hok
    rw [hdecode] at hok
    split at hok
    · cases hok
    · rename_i hlong
      cases hok
      exact hread (Nat.le_of_not_lt hlong)
  · rintro ⟨rest, rfl⟩
    exact happend h rest

theorem RouteHeader.decode_eq_ok_iff {payload : Bytes} {h : RouteHeader} :
    decode payload = .ok h ↔ ∃ rest, payload = h.bytes ++ rest := by
  refine decode_eq_ok_iff_of_read rfl ?_ decode_append
  intro hlong
  exact ⟨_, eq_map_byteAt_append (n := 8) hlong⟩

theorem AddressHeader.decode_append (h : AddressHeader) (rest : Bytes) :
    decode (h.bytes ++ rest) = .ok h := by
  have hsize : ¬(h.bytes ++ rest).length < size := by
    rw [List.length_append, length_bytes]
    omega
  have hindex : (h.bytes ++ rest).uint32At 4 = h.index := by
    rw [bytes, List.append_assoc]
    exact uint32At_append [h.family, h.prefixLength, h.flags, h.scope] h.index rest
  rw [decode, if_neg hsize, hindex]
  rfl

theorem AddressHeader.decode_eq_ok_iff {payload : Bytes} {h : AddressHeader} :
    decode payload = .ok h ↔ ∃ rest, payload = h.bytes ++ rest := by
  refine decode_eq_ok_iff_of_read rfl ?_ decode_append
  intro hlong
  exact ⟨_, eq_map_byteAt_append (n := 4) hlong⟩

/-! ## Addresses in octets -/

theorem Address.ofOctets?_eq_some_iff {octets : Bytes} {a : Address} :
    ofOctets? octets = some a ↔ octets = a.octets := by
  constructor
  · intro ha
    have hlt := ofBigEndian_lt octets
    have hback := bigEndian_ofBigEndian octets
    rw [ofOctets?] at ha
    split at ha
    · rename_i hfour
      rw [hfour] at hlt hback
      have hmod : octets.ofBigEndian % 2 ^ 32 = octets.ofBigEndian := Nat.mod_eq_of_lt hlt
      rw [← Option.some.inj ha, Address.octets, BitVec.toNat_ofNat, hmod, hback]
    · split at ha
      · rename_i hsixteen
        rw [hsixteen] at hlt hback
        have hmod : octets.ofBigEndian % 2 ^ 128 = octets.ofBigEndian := Nat.mod_eq_of_lt hlt
        rw [← Option.some.inj ha, Address.octets, BitVec.toNat_ofNat, hmod, hback]
      · cases ha
  · rintro rfl
    exact ofOctets?_octets a

/-- A family admits its own addresses, and no family in particular admits all. -/
theorem Address.ofOctetsIn?_eq_some_iff {family : Family} {octets : Bytes} {a : Address} :
    ofOctetsIn? family octets = some a ↔
      octets = a.octets ∧ (family = a.family ∨ family = .unspecified) := by
  rw [ofOctetsIn?, Option.ite_none_right_eq_some, ofOctets?_eq_some_iff, and_comm]
  refine and_congr_right fun hoctets => ?_
  subst hoctets
  cases a <;> simp [length_octets, isV4, Address.family]

/-- The widths of addresses that a family has. -/
theorem Address.isSome_ofOctetsIn? (family : Family) (octets : Bytes) :
    (ofOctetsIn? family octets).isSome ↔
      ((family = .inet ∨ family = .unspecified) ∧ octets.length = 4) ∨
        ((family = .inet6 ∨ family = .unspecified) ∧ octets.length = 16) := by
  by_cases hfour : octets.length = 4
  · simp [ofOctetsIn?, ofOctets?, hfour]
  by_cases hsixteen : octets.length = 16
  · simp [ofOctetsIn?, ofOctets?, hsixteen]
  · simp [ofOctetsIn?, ofOctets?, hfour, hsixteen]

/-! ## Routes -/

namespace Route

/-- The record that a header and attributes tell of: each field is the last value of its attribute,
or what it is without one. -/
def ofAttributes (h : RouteHeader) (attributes : List Attribute) : Route :=
  let address kind := lastValue? kind (Address.ofOctetsIn? h.family) attributes
  let word kind := lastValue? kind uint32? attributes
  { family := h.family
    destination := (address RouteAttribute.destination).getD (.unspecifiedIn h.family)
    prefixLength := h.destinationLength
    gateway := address RouteAttribute.gateway
    preferredSource := address RouteAttribute.preferredSource
    outputInterface := word RouteAttribute.outputInterface
    table := (word RouteAttribute.table).getD h.table.toUInt32
    priority := (word RouteAttribute.priority).getD 0
    type := h.type
    protocol := h.protocol
    scope := h.scope }

/-- One attribute sets the field that it holds a value of. -/
theorem absorb_eq (r : Route) (a : Attribute) :
    r.absorb a =
      let address kind := value? kind (Address.ofOctetsIn? r.family) a
      let word kind := value? kind uint32? a
      { r with
        destination := (address RouteAttribute.destination).getD r.destination
        gateway := (address RouteAttribute.gateway).or r.gateway
        preferredSource := (address RouteAttribute.preferredSource).or r.preferredSource
        outputInterface := (word RouteAttribute.outputInterface).or r.outputInterface
        table := (word RouteAttribute.table).getD r.table
        priority := (word RouteAttribute.priority).getD r.priority } := by
  by_cases hdestination : a.kind = RouteAttribute.destination
  · simp +decide [absorb, value?, hdestination]
  by_cases hgateway : a.kind = RouteAttribute.gateway
  · simp +decide [absorb, value?, hgateway]
  by_cases hsource : a.kind = RouteAttribute.preferredSource
  · simp +decide [absorb, value?, hsource]
  by_cases hinterface : a.kind = RouteAttribute.outputInterface
  · simp +decide [absorb, value?, hinterface]
  by_cases hpriority : a.kind = RouteAttribute.priority
  · simp +decide [absorb, value?, hpriority]
  by_cases htable : a.kind = RouteAttribute.table
  · simp +decide [absorb, value?, htable]
  · simp [absorb, value?, hdestination, hgateway, hsource, hinterface, hpriority, htable]

theorem foldl_absorb (attributes : List Attribute) (r : Route) :
    attributes.foldl absorb r =
      let address kind := lastValue? kind (Address.ofOctetsIn? r.family) attributes
      let word kind := lastValue? kind uint32? attributes
      { r with
        destination := (address RouteAttribute.destination).getD r.destination
        gateway := (address RouteAttribute.gateway).or r.gateway
        preferredSource := (address RouteAttribute.preferredSource).or r.preferredSource
        outputInterface := (word RouteAttribute.outputInterface).or r.outputInterface
        table := (word RouteAttribute.table).getD r.table
        priority := (word RouteAttribute.priority).getD r.priority } := by
  induction attributes generalizing r with
  | nil => rfl
  | cons a rest ih =>
      rw [List.foldl_cons, ih, absorb_eq]
      simp only [lastValue?_cons, Option.or_assoc, Option.getD_or]

theorem foldl_absorb_ofHeader (h : RouteHeader) (attributes : List Attribute) :
    attributes.foldl absorb (ofHeader h) = ofAttributes h attributes := by
  rw [foldl_absorb]
  simp only [ofHeader, ofAttributes, Option.or_none]

theorem decode?_append_eq (h : RouteHeader) (rest : Bytes) :
    decode? (h.bytes ++ rest) = some (ofAttributes h (walk rest)) := by
  rw [decode?_append, foldl_absorb_ofHeader]

theorem decode?_eq_some_iff {payload : Bytes} {r : Route} :
    decode? payload = some r ↔
      ∃ h rest, payload = RouteHeader.bytes h ++ rest ∧ r = ofAttributes h (walk rest) := by
  rw [decode?, record?_eq_some_iff RouteHeader.decode_eq_ok_iff RouteHeader.length_bytes]
  simp only [foldl_absorb_ofHeader]

/-- The attributes that hold no value of a route: of a kind that it has no field for, or with a
payload that is none of the kind. -/
def Ignores (family : Family) (a : Attribute) : Prop :=
  (a.kind ∈ RouteAttribute.addresses → Address.ofOctetsIn? family a.payload = none) ∧
    (a.kind ∈ [RouteAttribute.outputInterface, RouteAttribute.priority, RouteAttribute.table] →
      uint32? a.payload = none)

theorem ofAttributes_of_rearranged {h : RouteHeader} {first second : List Attribute}
    (hrearranged : Rearranged (Ignores h.family) first second) :
    ofAttributes h second = ofAttributes h first := by
  have haddress : ∀ kind ∈ RouteAttribute.addresses,
      lastValue? kind (Address.ofOctetsIn? h.family) second =
        lastValue? kind (Address.ofOctetsIn? h.family) first := fun _ hkind =>
    lastValue?_rearranged (fun _ ha hsame => ha.1 (hsame ▸ hkind)) hrearranged
  have hword : ∀ kind ∈
      [RouteAttribute.outputInterface, RouteAttribute.priority, RouteAttribute.table],
      lastValue? kind uint32? second = lastValue? kind uint32? first := fun _ hkind =>
    lastValue?_rearranged (fun _ ha hsame => ha.2 (hsame ▸ hkind)) hrearranged
  simp only [ofAttributes]
  rw [haddress _ (by decide), haddress _ (by decide), haddress _ (by decide),
    hword _ (by decide), hword _ (by decide), hword _ (by decide)]

end Route

/-! ## Addresses of interfaces -/

namespace InterfaceAddress

/-- The record that a header and attributes tell of. -/
def ofAttributes (h : AddressHeader) (attributes : List Attribute) : InterfaceAddress :=
  let address kind := lastValue? kind (Address.ofOctetsIn? h.family) attributes
  { index := h.index
    family := h.family
    prefixLength := h.prefixLength
    hostAddress := address AddressAttribute.hostAddress
    address := address AddressAttribute.address }

theorem absorb_eq (r : InterfaceAddress) (a : Attribute) :
    r.absorb a =
      let address kind := value? kind (Address.ofOctetsIn? r.family) a
      { r with
        hostAddress := (address AddressAttribute.hostAddress).or r.hostAddress
        address := (address AddressAttribute.address).or r.address } := by
  by_cases hhost : a.kind = AddressAttribute.hostAddress
  · simp +decide [absorb, value?, hhost]
  by_cases haddress : a.kind = AddressAttribute.address
  · simp +decide [absorb, value?, haddress]
  · simp [absorb, value?, hhost, haddress]

theorem foldl_absorb (attributes : List Attribute) (r : InterfaceAddress) :
    attributes.foldl absorb r =
      let address kind := lastValue? kind (Address.ofOctetsIn? r.family) attributes
      { r with
        hostAddress := (address AddressAttribute.hostAddress).or r.hostAddress
        address := (address AddressAttribute.address).or r.address } := by
  induction attributes generalizing r with
  | nil => rfl
  | cons a rest ih =>
      rw [List.foldl_cons, ih, absorb_eq]
      simp only [lastValue?_cons, Option.or_assoc]

theorem foldl_absorb_ofHeader (h : AddressHeader) (attributes : List Attribute) :
    attributes.foldl absorb (ofHeader h) = ofAttributes h attributes := by
  rw [foldl_absorb]
  simp only [ofHeader, ofAttributes, Option.or_none]

theorem decode?_append (h : AddressHeader) (rest : Bytes) :
    decode? (h.bytes ++ rest) = some (ofAttributes h (walk rest)) := by
  rw [decode?, record?_of_decode (AddressHeader.decode_append h rest),
    List.drop_left' h.length_bytes, foldl_absorb_ofHeader]

theorem decode?_eq_some_iff {payload : Bytes} {r : InterfaceAddress} :
    decode? payload = some r ↔
      ∃ h rest, payload = AddressHeader.bytes h ++ rest ∧ r = ofAttributes h (walk rest) := by
  rw [decode?, record?_eq_some_iff AddressHeader.decode_eq_ok_iff AddressHeader.length_bytes]
  simp only [foldl_absorb_ofHeader]

/-- The attributes that hold no address of an interface. -/
def Ignores (family : Family) (a : Attribute) : Prop :=
  a.kind ∈ [AddressAttribute.hostAddress, AddressAttribute.address] →
    Address.ofOctetsIn? family a.payload = none

theorem ofAttributes_of_rearranged {h : AddressHeader} {first second : List Attribute}
    (hrearranged : Rearranged (Ignores h.family) first second) :
    ofAttributes h second = ofAttributes h first := by
  have haddress : ∀ kind ∈ [AddressAttribute.hostAddress, AddressAttribute.address],
      lastValue? kind (Address.ofOctetsIn? h.family) second =
        lastValue? kind (Address.ofOctetsIn? h.family) first := fun _ hkind =>
    lastValue?_rearranged (fun _ ha hsame => ha (hsame ▸ hkind)) hrearranged
  simp only [ofAttributes]
  rw [haddress _ (by decide), haddress _ (by decide)]

end InterfaceAddress

/-! ## Both records -/

/-- A payload is decoded just where it starts with a header.  The record is what the header says
and the last value of each kind of attribute, of those that are walked; a word is held by its four
bytes, and an address by its octets, if the family admits them.  Attributes that are ignored may be
put in anywhere, and neighbours of different kinds swapped. -/
theorem records_of_last_values :
    (∀ payload, (Route.decode? payload).isSome ↔ 12 ≤ payload.length) ∧
    (∀ payload, (InterfaceAddress.decode? payload).isSome ↔ 8 ≤ payload.length) ∧
    (∀ payload r, Route.decode? payload = some r ↔
      ∃ h rest, payload = RouteHeader.bytes h ++ rest ∧ r = Route.ofAttributes h (walk rest)) ∧
    (∀ payload r, InterfaceAddress.decode? payload = some r ↔
      ∃ h rest, payload = AddressHeader.bytes h ++ rest ∧
        r = InterfaceAddress.ofAttributes h (walk rest)) ∧
    (∀ payload, (uint32? payload).isSome ↔ payload.length = 4) ∧
    (∀ payload word, uint32? payload = some word ↔ payload = ofUInt32 word) ∧
    (∀ family payload, (Address.ofOctetsIn? family payload).isSome ↔
      ((family = .inet ∨ family = .unspecified) ∧ payload.length = 4) ∨
        ((family = .inet6 ∨ family = .unspecified) ∧ payload.length = 16)) ∧
    (∀ family payload a, Address.ofOctetsIn? family payload = some a ↔
      payload = a.octets ∧ (family = a.family ∨ family = .unspecified)) ∧
    (∀ (h : RouteHeader) first second,
      Rearranged (Route.Ignores h.family) (walk first) (walk second) →
        Route.decode? (h.bytes ++ second) = Route.decode? (h.bytes ++ first)) ∧
    (∀ (h : AddressHeader) first second,
      Rearranged (InterfaceAddress.Ignores h.family) (walk first) (walk second) →
        InterfaceAddress.decode? (h.bytes ++ second) =
          InterfaceAddress.decode? (h.bytes ++ first)) := by
  refine ⟨Route.isSome_decode?, InterfaceAddress.isSome_decode?,
    fun _ _ => Route.decode?_eq_some_iff, fun _ _ => InterfaceAddress.decode?_eq_some_iff,
    isSome_uint32?, fun _ _ => uint32?_eq_some_iff, Address.isSome_ofOctetsIn?,
    fun _ _ _ => Address.ofOctetsIn?_eq_some_iff, ?_, ?_⟩
  · intro h first second hrearranged
    rw [Route.decode?_append_eq, Route.decode?_append_eq,
      Route.ofAttributes_of_rearranged hrearranged]
  · intro h first second hrearranged
    rw [InterfaceAddress.decode?_append, InterfaceAddress.decode?_append,
      InterfaceAddress.ofAttributes_of_rearranged hrearranged]

def plainRow : List Attribute :=
  [⟨RouteAttribute.destination, [10, 1, 2, 0]⟩, ⟨RouteAttribute.outputInterface, [3, 0, 0, 0]⟩]

def shuffledRow : List Attribute :=
  [⟨RouteAttribute.outputInterface, [3, 0, 0, 0]⟩, ⟨RouteAttribute.outputInterface, [9]⟩,
    ⟨RouteAttribute.destination, [10, 1, 2, 0]⟩]

private theorem rearranged_shuffledRow {Ignored : Attribute → Prop}
    (h : Ignored ⟨RouteAttribute.outputInterface, [9]⟩) :
    Rearranged Ignored (walk (stack [] (plainRow.map bytes)))
      (walk (stack [] (shuffledRow.map bytes))) := by
  rw [walk_stack (by decide), walk_stack (by decide)]
  exact .trans (.swapped [] [] (by decide))
    (.inserted [⟨RouteAttribute.outputInterface, [3, 0, 0, 0]⟩] _ h)

theorem records_of_last_values_shuffledRow :
    Route.decode? (RouteHeader.bytes { family := .inet, destinationLength := 24 } ++
        stack [] (shuffledRow.map bytes)) =
      Route.decode? (RouteHeader.bytes { family := .inet, destinationLength := 24 } ++
        stack [] (plainRow.map bytes)) ∧
    InterfaceAddress.decode? (AddressHeader.bytes { family := .inet, prefixLength := 24 } ++
        stack [] (shuffledRow.map bytes)) =
      InterfaceAddress.decode? (AddressHeader.bytes { family := .inet, prefixLength := 24 } ++
        stack [] (plainRow.map bytes)) := by
  obtain ⟨-, -, -, -, -, -, -, -, hroute, haddress⟩ := records_of_last_values
  exact ⟨hroute _ _ _ (rearranged_shuffledRow ⟨by decide, by decide⟩),
    haddress _ _ _ (rearranged_shuffledRow (by unfold InterfaceAddress.Ignores; decide))⟩

end RouteControl
