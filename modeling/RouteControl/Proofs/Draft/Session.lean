import RouteControl.Proofs.Draft.Message

/-!
# Sessions

A session is a draft to which one thing after the other is done, with the nests that were opened and
not taken back.  An action for which there is no room is refused, and nothing has changed; any other
makes the draft that of another message under the type and the flags that it was begun with, and
each nest still lies within the payload (`Carries.advances`).  The header tells the length of the
message cut to thirty-two bits; where the buffer can be counted with as many, nothing is cut.  So
such a draft is sound whatever was done to it (`sound_of_permits`): it counts itself, nothing but
zeros lies behind what is in use, and what is in use is read as one message.
-/

namespace RouteControl.Draft

open MessageHeader Bytes

/-- The draft tells its length and what it was begun with, has only zeros behind what is in use, and
is read as the one message whose payload is all behind the header. -/
structure Sound (type : MessageType) (flags : MessageFlags) (capacity : Nat) (d : Draft) : Prop
    extends WellFormed d where
  capacity_eq : d.capacity = capacity
  length_eq : d.header.length.toNat = d.length
  type_eq : d.header.type = type
  flags_eq : d.header.flags = flags
  zero_of_mem : ∀ byte ∈ d.buffer.drop d.length, byte = 0
  read_eq : Message.read d.bytes = ⟨[⟨d.header, d.bytes.drop size⟩], none⟩

inductive Action where
  | append (data : Bytes)
  | appendAttribute (type : UInt16) (payload : Bytes)
  | appendWord (type : UInt16) (word : UInt32)
  | appendText (type : UInt16) (text : String)
  | openNest (type : UInt16)
  | closeNest (nest : Nest)
  | dropNest (nest : Nest)
  | setSeq (seq : UInt32)
  | setPortId (portId : UInt32)
  deriving DecidableEq, Repr

namespace Action

def edit : Action → Edit (Option Nest)
  | append data => do
    Draft.append data
    return none
  | appendAttribute type payload => do
    Draft.appendAttribute type payload
    return none
  | appendWord type word => do
    Draft.appendWord type word
    return none
  | appendText type text => do
    Draft.appendText type text
    return none
  | openNest type => do
    let nest ← Draft.openNest type
    return some nest
  | closeNest nest => do
    Draft.closeNest nest
    return none
  | dropNest nest => do
    Draft.dropNest nest
    return none
  | setSeq seq => do
    modify (withSeq seq)
    return none
  | setPortId portId => do
    modify (withPortId portId)
    return none

def attribute? : Action → Option Attribute
  | appendAttribute type payload => some ⟨type, payload⟩
  | appendWord type word => some ⟨type, ofUInt32 word⟩
  | appendText type text => some ⟨type, ofTerminatedText text⟩
  | openNest type => some (opening type)
  | _ => none

def data? : Action → Option Bytes
  | append data => some data
  | a => a.attribute?.map Attribute.bytes

/-- What the action puts behind the payload fits into the buffer, on the next grid line behind so
many bytes; and an attribute fits into its length. -/
def HasRoom (capacity length : Nat) (a : Action) : Prop :=
  (∀ data ∈ a.data?, align length + data.length ≤ capacity) ∧ ∀ b ∈ a.attribute?, b.Fits

/-- The nests that are left of these: with a nest go all that were opened after it. -/
def kept : Action → List Nest → List Nest
  | dropNest nest, nests => nests.takeWhile (· ≠ nest)
  | _, nests => nests

/-- The nest that is opened where the data start. -/
def nest? (offset : Nat) : Action → Option Nest
  | openNest _ => some ⟨offset⟩
  | _ => none

/-! ## Adding data -/

/-- Where there is room for the data they become the end of the payload, and where there is none the
action is refused and the draft stays. -/
def Adds (a : Action) (data : Bytes) (capacity : Nat) (m : Message) : Prop :=
  (a.HasRoom capacity (ofMessage m capacity).length ∧
    a.edit (ofMessage m capacity) =
      .ok (a.nest? (align (ofMessage m capacity).length)) (ofMessage (m.extended data) capacity)) ∨
  (¬a.HasRoom capacity (ofMessage m capacity).length ∧
    a.edit (ofMessage m capacity) =
      .error (.bufferTooSmall (align (ofMessage m capacity).length + data.length) capacity)
        (ofMessage m capacity))

section

variable {a : Action} {data : Bytes} {m : Message} {capacity length : Nat}

private theorem hasRoom_of_data?_eq_none (h : a.data? = none) : a.HasRoom capacity length := by
  have hattribute : a.attribute? = none := by
    cases a <;> simp_all [data?, attribute?]
  simp [HasRoom, h, hattribute]

private theorem hasRoom_iff (hdata : a.data? = some data) :
    a.HasRoom capacity (ofMessage m capacity).length ↔
      (m.extended data).FitsIn capacity ∧ ∀ b ∈ a.attribute?, b.Fits := by
  rw [HasRoom, hdata, Message.FitsIn, ← @align_length_ofMessage m capacity]
  simp only [Option.mem_some, forall_eq']

private theorem data?_of_attribute? {b : Attribute} (h : a.attribute? = some b) :
    a.data? = some b.bytes := by
  cases a <;> simp_all [data?, attribute?]

private theorem adds_of_ite (hdata : a.data? = some data) {room : Prop} [Decidable room]
    (hroom : room ↔ (m.extended data).FitsIn capacity ∧ ∀ b ∈ a.attribute?, b.Fits)
    (hedit : a.edit (ofMessage m capacity) =
      if room then
        .ok (a.nest? (size + m.payload.padded.length)) (ofMessage (m.extended data) capacity)
      else .error (.bufferTooSmall (size + (m.extended data).payload.length) capacity)
        (ofMessage m capacity)) : a.Adds data capacity m := by
  rw [← hasRoom_iff hdata] at hroom
  rw [Adds, ← hroom, align_length_ofMessage, align_ofMessage, hedit]
  by_cases hcase : room
  · exact .inl ⟨hcase, if_pos hcase⟩
  · exact .inr ⟨hcase, if_neg hcase⟩

theorem adds_append (h : m.FitsIn capacity) (data : Bytes) :
    (append data).Adds data capacity m := by
  refine adds_of_ite rfl ?_ (bind_of_ite _ (append_ofMessage h data))
  simp [attribute?]

/-- The three actions that end with the attribute. -/
theorem adds_of_attribute (h : m.FitsIn capacity) {b : Attribute}
    (hattribute : a.attribute? = some b)
    (hedit : a.edit = Draft.appendAttribute b.type b.payload >>= fun _ => pure none)
    (hnest : ∀ offset, a.nest? offset = none) : a.Adds b.bytes capacity m := by
  have hwrite := bind_of_ite (fun _ => pure (none : Option Nest)) (appendAttribute_ofMessage h b)
  rw [← hedit] at hwrite
  rw [← hnest] at hwrite
  refine adds_of_ite (data?_of_attribute? hattribute) ?_ hwrite
  simp [hattribute]

theorem adds_openNest (h : m.FitsIn capacity) (kind : UInt16) :
    (openNest kind).Adds (opening kind).bytes capacity m := by
  refine adds_of_ite rfl ?_ (bind_of_ite _ (openNest_ofMessage h kind))
  simp [attribute?, fits_opening]

theorem adds_of_data (h : m.FitsIn capacity) (hdata : a.data? = some data) :
    a.Adds data capacity m := by
  cases a with
  | append data =>
      cases hdata
      exact adds_append h data
  | appendAttribute type payload | appendWord type word | appendText type text =>
      cases hdata
      exact adds_of_attribute h rfl rfl fun _ => rfl
  | openNest kind =>
      cases hdata
      exact adds_openNest h kind
  | closeNest nest | dropNest nest | setSeq seq | setPortId portId => cases hdata

end

end Action

structure Session where
  draft : Draft
  nests : List Nest
  deriving DecidableEq, Repr

namespace Session

def begun (type : MessageType) (flags : MessageFlags) (capacity : Nat) : Session :=
  ⟨new type flags capacity, []⟩

/-- Only a nest that was opened and not taken back can be closed or dropped. -/
def Allows (s : Session) : Action → Prop
  | .closeNest nest | .dropNest nest => nest ∈ s.nests
  | _ => True

instance (s : Session) : (a : Action) → Decidable (s.Allows a)
  | .closeNest nest | .dropNest nest => inferInstanceAs (Decidable (nest ∈ s.nests))
  | .append _ | .appendAttribute _ _ | .appendWord _ _ | .appendText _ _ | .openNest _
  | .setSeq _ | .setPortId _ => .isTrue trivial

/-- The error of the action if it fails, and the session after it. -/
def perform (s : Session) (a : Action) : Option Error × Session :=
  match a.edit s.draft with
  | .ok opened draft => (none, ⟨draft, a.kept s.nests ++ opened.toList⟩)
  | .error e draft => (some e, { s with draft })

def run : Session → List Action → Session
  | s, [] => s
  | s, a :: actions => (s.perform a).2.run actions

/-- Each of the actions is allowed when its turn comes. -/
def Permits : Session → List Action → Prop
  | _, [] => True
  | s, a :: actions => s.Allows a ∧ (s.perform a).2.Permits actions

def decidePermits : (s : Session) → (actions : List Action) → Decidable (s.Permits actions)
  | _, [] => .isTrue trivial
  | s, a :: actions =>
    have := decidePermits (s.perform a).2 actions
    inferInstanceAs (Decidable (s.Allows a ∧ (s.perform a).2.Permits actions))

instance (s : Session) (actions : List Action) : Decidable (s.Permits actions) :=
  decidePermits s actions

/-! ## Places of nests -/

/-- The header of each nest lies between the header of the message and the end, and in front of the
nests that were opened after it. -/
structure Placed (nests : List Nest) (length : Nat) : Prop where
  inside : ∀ nest ∈ nests, size ≤ nest.offset ∧ nest.offset + AttributeHeader.size ≤ length
  ordered : nests.Pairwise fun first second => first.offset + AttributeHeader.size ≤ second.offset

variable {nests : List Nest} {nest : Nest} {length : Nat}

theorem placed_nil (length : Nat) : Placed [] length where
  inside _ hmem := by cases hmem
  ordered := .nil

theorem Placed.of_le {length' : Nat} (h : Placed nests length) (hle : length ≤ length') :
    Placed nests length' where
  inside nest hmem := ⟨(h.inside nest hmem).1, Nat.le_trans (h.inside nest hmem).2 hle⟩
  ordered := h.ordered

theorem Placed.opened (h : Placed nests length) (hsize : size ≤ length)
    (hle : length ≤ nest.offset) :
    Placed (nests ++ [nest]) (nest.offset + AttributeHeader.size) where
  inside := by
    intro other hmem
    rcases List.mem_append.1 hmem with hmem | hmem
    · obtain ⟨hfront, hback⟩ := h.inside other hmem
      exact ⟨hfront, by omega⟩
    · obtain rfl := List.mem_singleton.1 hmem
      exact ⟨Nat.le_trans hsize hle, Nat.le_refl _⟩
  ordered := by
    refine List.pairwise_append.2 ⟨h.ordered, List.pairwise_singleton _ _, ?_⟩
    intro first hfirst second hsecond
    obtain rfl := List.mem_singleton.1 hsecond
    exact Nat.le_trans (h.inside first hfirst).2 hle

/-- What is left when a nest is dropped lies in front of it. -/
private theorem offset_le_of_mem_takeWhile
    (h : nests.Pairwise fun first second => first.offset + AttributeHeader.size ≤ second.offset)
    (hmem : nest ∈ nests) :
    ∀ other ∈ nests.takeWhile (· ≠ nest), other.offset + AttributeHeader.size ≤ nest.offset := by
  induction nests with
  | nil => cases hmem
  | cons first rest ih =>
      obtain ⟨hfirst, hrest⟩ := List.pairwise_cons.1 h
      by_cases hsame : first = nest
      · simp [hsame]
      · have hnest : nest ∈ rest := (List.mem_cons.1 hmem).resolve_left (Ne.symm hsame)
        rw [List.takeWhile_cons_of_pos (by simpa using hsame)]
        exact List.forall_mem_cons.2 ⟨hfirst nest hnest, ih hrest hnest⟩

theorem Placed.dropped (h : Placed nests length) (hmem : nest ∈ nests) :
    Placed (nests.takeWhile (· ≠ nest)) nest.offset where
  inside other hother :=
    ⟨(h.inside other (List.takeWhile_subset _ hother)).1,
      offset_le_of_mem_takeWhile h.ordered hmem other hother⟩
  ordered := h.ordered.sublist (List.takeWhile_sublist _)

/-! ## The message of a session -/

/-- The draft of the session is that of the message, which was begun as told, and the nests lie in
it.  A length that the header cannot tell is cut to thirty-two bits. -/
structure Carries (type : MessageType) (flags : MessageFlags) (capacity : Nat) (s : Session)
    (m : Message) : Prop where
  draft_eq : s.draft = ofMessage m capacity
  fits : m.FitsIn capacity
  length_eq : m.header.length = UInt32.ofNat (size + m.payload.length)
  type_eq : m.header.type = type
  flags_eq : m.header.flags = flags
  placed : Placed s.nests (size + m.payload.length)

variable {type : MessageType} {flags : MessageFlags} {capacity : Nat} {s : Session} {m : Message}
  {a : Action}

theorem carries_begun (type : MessageType) (flags : MessageFlags) (capacity : Nat) :
    Carries type flags (max capacity size) (begun type flags capacity) ⟨ofType type flags, []⟩ where
  draft_eq := new_eq_ofMessage type flags capacity
  fits := Nat.le_max_right _ _
  length_eq := rfl
  type_eq := rfl
  flags_eq := rfl
  placed := placed_nil _

theorem Carries.wellFormed (h : Carries type flags capacity s m) (hcapacity : capacity < 2 ^ 32) :
    m.WellFormed := by
  rw [Message.WellFormed, h.length_eq]
  exact UInt32.toNat_ofNat_of_lt' (Nat.lt_of_le_of_lt h.fits hcapacity)

theorem Carries.sound (h : Carries type flags capacity s m) (hcapacity : capacity < 2 ^ 32) :
    s.draft.Sound type flags capacity := by
  have hwell := h.wellFormed hcapacity
  have hfull : (ofMessage m capacity).capacity = capacity := capacity_ofMessage h.fits
  have hpayload : (ofMessage m capacity).bytes.drop size = m.payload := by
    rw [bytes_ofMessage]
    exact List.drop_left' (length_bytes _)
  rw [h.draft_eq]
  constructor
  case toWellFormed => exact ⟨Nat.le_add_right _ _, by rw [hfull]; exact h.fits⟩
  case capacity_eq => exact hfull
  case length_eq =>
    rw [header_ofMessage]
    exact hwell
  case type_eq => rw [header_ofMessage, h.type_eq]
  case flags_eq => rw [header_ofMessage, h.flags_eq]
  case zero_of_mem =>
    rw [drop_buffer_ofMessage]
    exact fun byte hmem => List.eq_of_mem_replicate hmem
  case read_eq => rw [read_bytes_ofMessage hwell, header_ofMessage, hpayload]

theorem Carries.withPayload (h : Carries type flags capacity s m) {payload : Bytes}
    (hfits : size + payload.length ≤ capacity) (hplaced : Placed nests (size + payload.length)) :
    Carries type flags capacity ⟨ofMessage (m.withPayload payload) capacity, nests⟩
      (m.withPayload payload) where
  draft_eq := rfl
  fits := hfits
  length_eq := rfl
  type_eq := h.type_eq
  flags_eq := h.flags_eq
  placed := hplaced

/-- Another message of the same length and under the same header, the numbers in it apart. -/
theorem Carries.replaced (h : Carries type flags capacity s m) {m' : Message}
    (hheader : m'.header.length = m.header.length ∧ m'.header.type = m.header.type ∧
      m'.header.flags = m.header.flags)
    (hlength : m'.payload.length = m.payload.length) :
    Carries type flags capacity ⟨ofMessage m' capacity, s.nests⟩ m' where
  draft_eq := rfl
  fits := by
    rw [Message.FitsIn, hlength]
    exact h.fits
  length_eq := by
    rw [hheader.1, hlength]
    exact h.length_eq
  type_eq := hheader.2.1.trans h.type_eq
  flags_eq := hheader.2.2.trans h.flags_eq
  placed := by
    rw [hlength]
    exact h.placed

/-! ## One action -/

/-- The action was carried out, and the session is that of a message again; or there was no room for
what it adds, and nothing has changed. -/
def Advances (type : MessageType) (flags : MessageFlags) (capacity : Nat) (s : Session)
    (a : Action) : Prop :=
  (a.HasRoom capacity s.draft.length ∧
    ∃ s' m', s.perform a = (none, s') ∧ Carries type flags capacity s' m') ∨
  (¬a.HasRoom capacity s.draft.length ∧ ∃ data ∈ a.data?,
    s.perform a = (some (.bufferTooSmall (align s.draft.length + data.length) capacity), s))

theorem Carries.placed_of_data (h : Carries type flags capacity s m) {data : Bytes}
    (hdata : a.data? = some data) :
    Placed (a.kept s.nests ++ (a.nest? (align s.draft.length)).toList)
      (size + (m.extended data).payload.length) := by
  have hplaced : Placed s.nests (size + (m.extended data).payload.length) :=
    h.placed.of_le (Nat.add_le_add_left (m.length_le_extended data) size)
  rw [← List.append_nil s.nests] at hplaced
  cases a with
  | append | appendAttribute | appendWord | appendText => exact hplaced
  | openNest kind =>
      cases hdata
      have hend : align s.draft.length + AttributeHeader.size =
          size + (m.extended (opening kind).bytes).payload.length := by
        rw [h.draft_eq, ← align_length_ofMessage, Attribute.length_bytes]
        rfl
      have hle : size + m.payload.length ≤ align s.draft.length := by
        rw [h.draft_eq]
        exact le_align _
      rw [← hend]
      exact h.placed.opened (Nat.le_add_right _ _) hle
  | closeNest | dropNest | setSeq | setPortId => cases hdata

/-- An action that adds data makes them the end of the payload where there is room for them. -/
theorem Carries.perform_of_data (h : Carries type flags capacity s m) {data : Bytes}
    (hdata : a.data? = some data) :
    let s' : Session := ⟨ofMessage (m.extended data) capacity,
      a.kept s.nests ++ (a.nest? (align s.draft.length)).toList⟩
    (a.HasRoom capacity s.draft.length ∧ s.perform a = (none, s') ∧
      Carries type flags capacity s' (m.extended data)) ∨
    (¬a.HasRoom capacity s.draft.length ∧
      s.perform a = (some (.bufferTooSmall (align s.draft.length + data.length) capacity), s)) := by
  intro s'
  have hadds := Action.adds_of_data h.fits hdata
  rw [Action.Adds, ← h.draft_eq] at hadds
  rcases hadds with ⟨hroom, hedit⟩ | ⟨hfull, hedit⟩
  · have hfits : (m.extended data).FitsIn capacity := by
      rw [h.draft_eq] at hroom
      exact ((Action.hasRoom_iff hdata).1 hroom).1
    exact .inl ⟨hroom, by rw [perform, hedit], h.withPayload hfits (h.placed_of_data hdata)⟩
  · exact .inr ⟨hfull, by rw [perform, hedit]⟩

theorem Carries.advances_of_data (h : Carries type flags capacity s m) {data : Bytes}
    (hdata : a.data? = some data) : Advances type flags capacity s a := by
  rcases h.perform_of_data hdata with ⟨hroom, hperform, hcarries⟩ | ⟨hfull, hperform⟩
  · exact .inl ⟨hroom, _, _, hperform, hcarries⟩
  · exact .inr ⟨hfull, data, hdata, hperform⟩

theorem Carries.exists_offset (h : Carries type flags capacity s m) (hnest : nest ∈ s.nests) :
    ∃ offset, nest = ⟨size + offset⟩ ∧ offset + AttributeHeader.size ≤ m.payload.length := by
  obtain ⟨hfront, hback⟩ := h.placed.inside nest hnest
  obtain ⟨offset, hoffset⟩ := Nat.exists_eq_add_of_le hfront
  refine ⟨offset, congrArg Nest.mk hoffset, ?_⟩
  omega

theorem Carries.closed (h : Carries type flags capacity s m) {offset : Nat}
    (hroom : offset + 2 ≤ m.payload.length) :
    let word := ofUInt16 (UInt16.ofNat (m.payload.length - offset))
    let m' : Message := ⟨m.header, m.payload.overwrite offset word⟩
    let s' : Session := ⟨ofMessage m' capacity, s.nests⟩
    s.perform (.closeNest ⟨size + offset⟩) = (none, s') ∧ Carries type flags capacity s' m' := by
  intro word m' s'
  have hedit : (Action.closeNest ⟨size + offset⟩).edit s.draft = .ok none s'.draft := by
    rw [Action.edit, h.draft_eq, bind_of_ok (closeNest_ofMessage hroom)]
    rfl
  have hlength : m'.payload.length = m.payload.length := by
    refine length_overwrite ?_
    rwa [length_ofUInt16]
  refine ⟨?_, h.replaced ⟨rfl, rfl, rfl⟩ hlength⟩
  rw [perform, hedit]
  exact congrArg (fun nests => (none, Session.mk s'.draft nests)) (List.append_nil s.nests)

theorem Carries.dropped (h : Carries type flags capacity s m) {offset : Nat}
    (hnest : ⟨size + offset⟩ ∈ s.nests) :
    let m' := m.withPayload (m.payload.take offset)
    let s' : Session := ⟨ofMessage m' capacity, s.nests.takeWhile (· ≠ ⟨size + offset⟩)⟩
    s.perform (.dropNest ⟨size + offset⟩) = (none, s') ∧ Carries type flags capacity s' m' := by
  intro m' s'
  have hroom : offset ≤ m.payload.length := by
    have hinside := (h.placed.inside _ hnest).2
    simp only [AttributeHeader.size] at hinside
    omega
  have htaken : (m.payload.take offset).length = offset := by
    rw [List.length_take, Nat.min_eq_left hroom]
  have hedit : (Action.dropNest ⟨size + offset⟩).edit s.draft = .ok none s'.draft := by
    rw [Action.edit, h.draft_eq, bind_of_ok (dropNest_ofMessage h.fits hroom)]
    rfl
  have hfits : size + (m.payload.take offset).length ≤ capacity := by
    rw [htaken]
    exact Nat.le_trans (Nat.add_le_add_left hroom size) h.fits
  have hplaced := h.placed.dropped hnest
  refine ⟨?_, h.withPayload hfits (by rwa [htaken])⟩
  rw [perform, hedit]
  exact congrArg (fun nests => (none, Session.mk s'.draft nests)) (List.append_nil _)

theorem Carries.advances_closeNest (h : Carries type flags capacity s m) (hnest : nest ∈ s.nests) :
    Advances type flags capacity s (.closeNest nest) := by
  obtain ⟨offset, rfl, hoffset⟩ := h.exists_offset hnest
  have hroom : offset + 2 ≤ m.payload.length := by
    simp only [AttributeHeader.size] at hoffset
    omega
  obtain ⟨hperform, hcarries⟩ := h.closed hroom
  exact .inl ⟨Action.hasRoom_of_data?_eq_none rfl, _, _, hperform, hcarries⟩

theorem Carries.advances_dropNest (h : Carries type flags capacity s m) (hnest : nest ∈ s.nests) :
    Advances type flags capacity s (.dropNest nest) := by
  obtain ⟨offset, rfl, -⟩ := h.exists_offset hnest
  obtain ⟨hperform, hcarries⟩ := h.dropped hnest
  exact .inl ⟨Action.hasRoom_of_data?_eq_none rfl, _, _, hperform, hcarries⟩

private theorem advances_of_numbered {d : Draft} (hdata : a.data? = none)
    (hedit : a.edit s.draft = .ok none d)
    (hcarries : Carries type flags capacity ⟨d, a.kept s.nests⟩ m) :
    Advances type flags capacity s a := by
  rw [← List.append_nil (a.kept s.nests)] at hcarries
  exact .inl ⟨Action.hasRoom_of_data?_eq_none hdata, _, _, by rw [perform, hedit]; rfl, hcarries⟩

theorem Carries.advances_setSeq (h : Carries type flags capacity s m) (seq : UInt32) :
    Advances type flags capacity s (.setSeq seq) := by
  have hok : (Action.setSeq seq).edit s.draft = .ok none (s.draft.withSeq seq) := rfl
  rw [h.draft_eq, withSeq_ofMessage, ← h.draft_eq] at hok
  exact advances_of_numbered rfl hok (h.replaced ⟨rfl, rfl, rfl⟩ rfl)

theorem Carries.advances_setPortId (h : Carries type flags capacity s m) (portId : UInt32) :
    Advances type flags capacity s (.setPortId portId) := by
  have hok : (Action.setPortId portId).edit s.draft = .ok none (s.draft.withPortId portId) := rfl
  rw [h.draft_eq, withPortId_ofMessage, ← h.draft_eq] at hok
  exact advances_of_numbered rfl hok (h.replaced ⟨rfl, rfl, rfl⟩ rfl)

theorem Carries.advances (h : Carries type flags capacity s m) (ha : s.Allows a) :
    Advances type flags capacity s a := by
  cases a with
  | append | appendAttribute | appendWord | appendText | openNest => exact h.advances_of_data rfl
  | closeNest nest => exact h.advances_closeNest ha
  | dropNest nest => exact h.advances_dropNest ha
  | setSeq seq => exact h.advances_setSeq seq
  | setPortId portId => exact h.advances_setPortId portId

/-! ## A row of actions -/

theorem Carries.run (h : Carries type flags capacity s m) {actions : List Action}
    (hactions : s.Permits actions) : ∃ m', Carries type flags capacity (s.run actions) m' := by
  induction actions generalizing s m with
  | nil => exact ⟨m, h⟩
  | cons a actions ih =>
      obtain ⟨ha, hrest⟩ := hactions
      rw [Session.run]
      rcases h.advances ha with ⟨-, s', m', hperform, hcarries⟩ | ⟨-, data, -, hperform⟩
      · rw [hperform] at hrest ⊢
        exact ih hcarries hrest
      · rw [hperform] at hrest ⊢
        exact ih h hrest

/-- Whatever was done to a draft, it is sound.  What is done next fails just when there is no room
for what it adds, and then it changes nothing. -/
theorem sound_of_permits (type : MessageType) (flags : MessageFlags) {capacity : Nat}
    (hcapacity : capacity < 2 ^ 32) {actions : List Action}
    (hactions : (begun type flags capacity).Permits actions) :
    let s := (begun type flags capacity).run actions
    s.draft.Sound type flags (max capacity size) ∧
    ∀ a, s.Allows a →
      ((s.perform a).1 = none ↔ a.HasRoom (max capacity size) s.draft.length) ∧
      ∀ e, (s.perform a).1 = some e →
        (∃ data ∈ a.data?,
          e = .bufferTooSmall (align s.draft.length + data.length) (max capacity size)) ∧
        (s.perform a).2 = s := by
  intro s
  have hmax : max capacity size < 2 ^ 32 := Nat.max_lt.2 ⟨hcapacity, by decide⟩
  obtain ⟨m, hm⟩ := (carries_begun type flags capacity).run hactions
  refine ⟨hm.sound hmax, fun a ha => ?_⟩
  rcases hm.advances ha with ⟨hroom, s', m', hperform, -⟩ | ⟨hfull, data, hdata, hperform⟩
  · rw [hperform]
    exact ⟨iff_of_true rfl hroom, fun e he => by cases he⟩
  · rw [hperform]
    refine ⟨iff_of_false (Option.some_ne_none _) hfull, fun e he => ?_⟩
    cases he
    exact ⟨⟨data, hdata, rfl⟩, rfl⟩

/-- Data that do not end on the grid, a nest in a nest that fills the buffer, a word for which there
is no room, both nests closed and the inner one taken back. -/
def crowded : List Action :=
  [.append [1, 2, 3, 4, 5], .openNest 8, .appendAttribute 1 [6, 7, 8], .openNest 9, .appendWord 2 9,
    .closeNest ⟨36⟩, .closeNest ⟨24⟩, .dropNest ⟨36⟩, .setSeq 7, .setPortId 3]

theorem sound_of_permits_crowded :
    (begun .newRoute .request 40).Permits crowded ∧
    ((begun .newRoute .request 40).run crowded).nests = [⟨24⟩] ∧
    ((begun .newRoute .request 40).run crowded).draft.Sound .newRoute .request 40 ∧
    (((begun .newRoute .request 40).run crowded).perform (.append (zeros 5))).2 =
      (begun .newRoute .request 40).run crowded ∧
    (((begun .newRoute .request 40).run crowded).perform (.append (zeros 4))).1 = none := by
  have hpermits : (begun .newRoute .request 40).Permits crowded := by decide
  obtain ⟨hsound, hnext⟩ := sound_of_permits .newRoute .request (by decide) hpermits
  obtain ⟨-, hrefused⟩ := hnext (.append (zeros 5)) trivial
  obtain ⟨hdone, -⟩ := hnext (.append (zeros 4)) trivial
  refine ⟨hpermits, by decide, hsound, (hrefused (.bufferTooSmall 41 40) (by decide)).2, ?_⟩
  exact hdone.2 ⟨by decide, by decide⟩

end Session

end RouteControl.Draft
