import RouteControl.Proofs.Draft.Nest

/-!
# Taking back a nest

A nest that is opened pads the payload and puts a header behind it, and what is added later comes
behind that header; only closing a nest writes into what was there before (`Carries.builds`).  So
when the nest is taken back with all that was added since, what was there before is left, and the
padding in front of the nest with it (`Carries.takes_back`).  The draft is the one from before the
nest just when that ended on the grid, else it counts up to three zeros more
(`dropNest_keeps_padding`).  What is added next comes to the same in either case, as it starts on
the grid (`run_alike`).
-/

namespace RouteControl

open MessageHeader Bytes

/-! ## Messages that grow -/

namespace Message

/-- The second message is the first with more behind its payload, under the same numbers.  In what
was there before, told by the places in the buffer, nothing has changed that is to be spared. -/
structure Grows (Spared : Nat → Prop) (m m' : Message) : Prop where
  header_eq : m'.header = { m.header with length := m'.header.length }
  length_le : m.payload.length ≤ m'.payload.length
  spared_eq : ∀ place < m.payload.length, Spared (size + place) →
    m'.payload[place]? = m.payload[place]?

variable {Spared Spared' : Nat → Prop} {first second third m : Message}

theorem Grows.refl (Spared : Nat → Prop) (m : Message) : m.Grows Spared m where
  header_eq := rfl
  length_le := Nat.le_refl _
  spared_eq _ _ _ := rfl

theorem Grows.trans (h : first.Grows Spared second) (hnext : second.Grows Spared third) :
    first.Grows Spared third where
  header_eq := by
    have hsecond := h.header_eq
    have hthird := hnext.header_eq
    rw [hsecond] at hthird
    exact hthird
  length_le := Nat.le_trans h.length_le hnext.length_le
  spared_eq place hplace hspared :=
    (hnext.spared_eq place (Nat.lt_of_lt_of_le hplace h.length_le) hspared).trans
      (h.spared_eq place hplace hspared)

theorem Grows.mono (h : first.Grows Spared second)
    (hspared : ∀ place < size + first.payload.length, Spared' place → Spared place) :
    first.Grows Spared' second where
  header_eq := h.header_eq
  length_le := h.length_le
  spared_eq place hplace hkept :=
    h.spared_eq place hplace (hspared _ (Nat.add_lt_add_left hplace size) hkept)

theorem Grows.eq (h : first.Grows Spared second) (hspared : ∀ place, Spared place)
    (hheader : second.header = first.header)
    (hlength : second.payload.length = first.payload.length) : second = first := by
  have hpayload : second.payload = first.payload := by
    refine List.ext_getElem? fun place => ?_
    rcases Nat.lt_or_ge place first.payload.length with hinside | hbehind
    · exact h.spared_eq place hinside (hspared _)
    · rw [List.getElem?_eq_none hbehind, List.getElem?_eq_none (hlength ▸ hbehind)]
  exact congrArg₂ Message.mk hheader hpayload

theorem grows_extended (Spared : Nat → Prop) (data : Bytes) (m : Message) :
    m.Grows Spared (m.extended data) where
  header_eq := rfl
  length_le := m.length_le_extended data
  spared_eq place hplace _ := by
    rw [extended, withPayload, padded, List.append_assoc, List.getElem?_append_left hplace]

private theorem extended_withPayload_padded (data : Bytes) (m : Message) :
    (m.withPayload m.payload.padded).extended data = m.extended data := by
  change m.withPayload (m.payload.padded.padded ++ data) = _
  rw [padded_padded, extended]

/-- What was there before data were added, cut out of what has become of it since. -/
theorem Grows.takenBack {data : Bytes} (h : (m.extended data).Grows Spared third) :
    (m.withPayload m.payload.padded).Grows Spared
      (third.withPayload (third.payload.take m.payload.padded.length)) where
  header_eq := by
    have hheader := h.header_eq
    rw [withPayload, hheader]
    rfl
  length_le := by
    have hle := h.length_le
    rw [length_extended] at hle
    rw [withPayload, withPayload, List.length_take, length_padded]
    omega
  spared_eq := by
    intro place (hplace : place < m.payload.padded.length) hspared
    have hfront : place < (m.extended data).payload.length := by
      rw [length_extended, ← length_padded]
      exact Nat.lt_add_right _ hplace
    change (third.payload.take m.payload.padded.length)[place]? = m.payload.padded[place]?
    rw [List.getElem?_take_of_lt hplace, h.spared_eq place hfront hspared]
    exact List.getElem?_append_left hplace

private theorem FitsIn.of_extended {capacity : Nat} {data : Bytes}
    (h : (m.extended data).FitsIn capacity) :
    (m.withPayload m.payload.padded).FitsIn capacity := by
  rw [FitsIn, length_extended, ← length_padded] at h
  exact Nat.le_trans (Nat.add_le_add_left (Nat.le_add_right _ _) size) h

end Message

namespace Draft

variable {m m' : Message} {capacity : Nat} {a : Action}

private theorem getElem?_buffer_of_grows {Spared : Nat → Prop} (h : m.Grows Spared m')
    (hheader : m'.header = m.header) (hlength : m'.payload.length = m.payload.length) {place : Nat}
    (hspared : Spared place) :
    (ofMessage m' capacity).buffer[place]? = (ofMessage m capacity).buffer[place]? := by
  rw [ofMessage, ofMessage, hheader, hlength]
  rcases Nat.lt_or_ge place size with hfront | hback
  · have hinside : place < m.header.bytes.length := by rwa [length_bytes]
    rw [List.getElem?_append_left hinside, List.getElem?_append_left hinside]
  obtain ⟨offset, rfl⟩ := Nat.exists_eq_add_of_le hback
  have hbehind : m.header.bytes.length ≤ size + offset := by
    rw [length_bytes]
    exact Nat.le_add_right _ _
  rw [List.getElem?_append_right hbehind, List.getElem?_append_right hbehind, length_bytes,
    Nat.add_sub_cancel_left]
  rcases Nat.lt_or_ge offset m.payload.length with hpayload | hfree
  · rw [List.getElem?_append_left hpayload, List.getElem?_append_left (hlength ▸ hpayload)]
    exact h.spared_eq offset hpayload hspared
  · rw [List.getElem?_append_right hfree, List.getElem?_append_right (hlength ▸ hfree), hlength]

private theorem align_ofMessage_padded :
    align (ofMessage (m.withPayload m.payload.padded) capacity).length =
      align (ofMessage m capacity).length := by
  rw [align_ofMessage, align_ofMessage]
  change size + m.payload.padded.padded.length = _
  rw [padded_padded]

/-- The message with its payload padded lies in the buffer as the message does, and is counted to
the grid. -/
private theorem withLength_align_ofMessage (h : (m.withPayload m.payload.padded).FitsIn capacity) :
    (ofMessage m capacity).withLength (align (ofMessage m capacity).length) =
      ofMessage (m.withPayload m.payload.padded) capacity := by
  have hend : size + m.payload.padded.length ≤ capacity := h
  have hle := le_align m.payload.length
  have hlength := length_padded m.payload
  have hfree : zeros (capacity - (size + m.payload.length)) =
      zeros (align m.payload.length - m.payload.length) ++
        zeros (capacity - (size + m.payload.padded.length)) := by
    rw [← zeros_add]
    congr 1
    omega
  have hrest : m.payload ++ zeros (capacity - (size + m.payload.length)) =
      m.payload.padded ++ zeros (capacity - (size + m.payload.padded.length)) := by
    rw [hfree, ← List.append_assoc, padded]
  rw [align_ofMessage, ofMessage, hrest, withLength_eq]
  rfl

namespace Action

/-- Whether the action puts something behind the payload or closes a nest. -/
def builds : Action → Bool
  | dropNest _ | setSeq _ | setPortId _ => false
  | _ => true

/-- Closing a nest writes over its length, and no other action of those that build writes into what
is there. -/
def Spares (a : Action) (place : Nat) : Prop :=
  ∀ nest, a = closeNest nest → place < nest.offset ∨ nest.offset + 2 ≤ place

private theorem kept_of_builds (h : a.builds) (nests : List Nest) : a.kept nests = nests := by
  cases a with
  | dropNest nest => cases h
  | _ => rfl

end Action

namespace Session

variable {type : MessageType} {flags : MessageFlags} {s s' : Session} {nests : List Nest}
  {nest : Nest}

/-! ## Building -/

/-- What was built on: the message has grown, and the nests from before are still there. -/
def Builds (type : MessageType) (flags : MessageFlags) (capacity : Nat) (Spared : Nat → Prop)
    (m : Message) (nests : List Nest) (s : Session) : Prop :=
  ∃ m', Carries type flags capacity s m' ∧ m.Grows Spared m' ∧ nests <+: s.nests

theorem grows_closed {offset : Nat} (word : UInt16) (hroom : offset + 2 ≤ m.payload.length) :
    m.Grows (Action.closeNest ⟨size + offset⟩).Spares
      ⟨m.header, m.payload.overwrite offset (ofUInt16 word)⟩ where
  header_eq := rfl
  length_le := by
    refine Nat.le_of_eq (length_overwrite ?_).symm
    rwa [length_ofUInt16]
  spared_eq := by
    intro place hplace hspared
    refine getElem?_overwrite_of_outside _ (by omega) ?_
    have houtside := hspared _ rfl
    rw [length_ofUInt16]
    simp only at houtside
    omega

theorem Carries.builds_of_data (h : Carries type flags capacity s m) (hbuilds : a.builds)
    {data : Bytes} (hdata : a.data? = some data) :
    Builds type flags capacity a.Spares m s.nests (s.perform a).2 := by
  rcases h.perform_of_data hdata with ⟨-, hperform, hcarries⟩ | ⟨-, hperform⟩
  · rw [hperform]
    refine ⟨_, hcarries, Message.grows_extended _ data m, ?_⟩
    rw [Action.kept_of_builds hbuilds]
    exact List.prefix_append _ _
  · rw [hperform]
    exact ⟨m, h, .refl _ m, List.prefix_refl _⟩

theorem Carries.builds_closeNest (h : Carries type flags capacity s m) (hnest : nest ∈ s.nests) :
    Builds type flags capacity (Action.closeNest nest).Spares m s.nests
      (s.perform (.closeNest nest)).2 := by
  obtain ⟨offset, rfl, hoffset⟩ := h.exists_offset hnest
  have hroom : offset + 2 ≤ m.payload.length := by
    simp only [AttributeHeader.size] at hoffset
    omega
  obtain ⟨hperform, hcarries⟩ := h.closed hroom
  rw [hperform]
  exact ⟨_, hcarries, grows_closed _ hroom, List.prefix_refl _⟩

theorem Carries.builds (h : Carries type flags capacity s m) (ha : s.Allows a)
    (hbuilds : a.builds) : Builds type flags capacity a.Spares m s.nests (s.perform a).2 := by
  cases a with
  | append | appendAttribute | appendWord | appendText | openNest =>
      exact h.builds_of_data hbuilds rfl
  | closeNest nest => exact h.builds_closeNest ha
  | dropNest | setSeq | setPortId => cases hbuilds

/-! ## A row of actions -/

theorem Carries.run_builds (h : Carries type flags capacity s m) {actions : List Action}
    (hactions : s.Permits actions) (hbuilds : ∀ a ∈ actions, a.builds) :
    Builds type flags capacity (fun place => ∀ a ∈ actions, a.Spares place) m s.nests
      (s.run actions) := by
  induction actions generalizing s m with
  | nil => exact ⟨m, h, .refl _ m, List.prefix_refl _⟩
  | cons a actions ih =>
      obtain ⟨ha, hrest⟩ := hactions
      obtain ⟨hfirst, hothers⟩ := List.forall_mem_cons.1 hbuilds
      obtain ⟨next, hnext, hgrows, hnests⟩ := h.builds ha hfirst
      obtain ⟨last, hlast, hgrowsOn, hnestsOn⟩ := ih hnext hrest hothers
      rw [Session.run]
      refine ⟨last, hlast, .trans (hgrows.mono ?_) (hgrowsOn.mono ?_), hnests.trans hnestsOn⟩
      · exact fun place _ hspared => (List.forall_mem_cons.1 hspared).1
      · exact fun place _ hspared => (List.forall_mem_cons.1 hspared).2

/-- As nothing is taken back on the way, each nest that was closed is still there. -/
theorem Carries.mem_nests_of_closed (h : Carries type flags capacity s m) {actions : List Action}
    (hactions : s.Permits actions) (hbuilds : ∀ a ∈ actions, a.builds)
    (hmem : .closeNest nest ∈ actions) : nest ∈ (s.run actions).nests := by
  induction actions generalizing s m with
  | nil => cases hmem
  | cons a actions ih =>
      rcases List.mem_cons.1 hmem with rfl | hmem
      · obtain ⟨-, -, -, hnests⟩ := h.run_builds hactions hbuilds
        exact hnests.subset hactions.1
      · obtain ⟨hfirst, hothers⟩ := List.forall_mem_cons.1 hbuilds
        obtain ⟨next, hnext, -, -⟩ := h.builds hactions.1 hfirst
        exact ih hnext hactions.2 hothers hmem

variable {length : Nat}

theorem Placed.mem_or_le (h : Placed s.nests length) (hnests : nests ++ [nest] <+: s.nests)
    {other : Nest} (hother : other ∈ s.nests) : other ∈ nests ∨ nest.offset ≤ other.offset := by
  have hordered := h.ordered
  obtain ⟨later, hlater⟩ := hnests
  rw [← hlater] at hordered hother
  rcases List.mem_append.1 hother with hother | hother
  · rcases List.mem_append.1 hother with hother | hother
    · exact .inl hother
    · rw [List.mem_singleton.1 hother]
      exact .inr (Nat.le_refl _)
  · have hmem : nest ∈ nests ++ [nest] := List.mem_append_right _ (List.mem_singleton_self _)
    have hle := (List.pairwise_append.1 hordered).2.2 nest hmem other hother
    exact .inr (Nat.le_trans (Nat.le_add_right _ _) hle)

private theorem Placed.takeWhile_eq (h : Placed s.nests length)
    (hnests : nests ++ [nest] <+: s.nests) :
    s.nests.takeWhile (· ≠ nest) = nests := by
  have hordered := h.ordered
  obtain ⟨later, hlater⟩ := hnests
  rw [← hlater] at hordered
  rw [← hlater, List.append_assoc, List.takeWhile_append_of_pos, List.singleton_append,
    List.takeWhile_cons_of_neg (by simp), List.append_nil]
  intro first hfirst
  have hle := (List.pairwise_append.1 (List.pairwise_append.1 hordered).1).2.2 first hfirst nest
    (List.mem_singleton_self _)
  simp only [ne_eq, decide_eq_true_eq]
  rintro rfl
  simp only [AttributeHeader.size] at hle
  omega

/-! ## Opening the nest -/

theorem Carries.of_openNest (h : Carries type flags capacity s m) {kind : UInt16}
    (hopen : s.perform (.openNest kind) = (none, s')) :
    s'.nests = s.nests ++ [⟨align s.draft.length⟩] ∧
    Carries type flags capacity s' (m.extended (opening kind).bytes) := by
  have hdata : (Action.openNest kind).data? = some (opening kind).bytes := rfl
  rcases h.perform_of_data hdata with ⟨-, hperform, hcarries⟩ | ⟨-, hperform⟩
  · obtain rfl := congrArg Prod.snd (hopen.symm.trans hperform)
    exact ⟨rfl, hcarries⟩
  · cases hopen.symm.trans hperform

/-! ## Adding more -/

section

variable (hfits : m.FitsIn capacity) (hfits' : m'.FitsIn capacity)
  (halign : align (ofMessage m' capacity).length = align (ofMessage m capacity).length)
  (nests : List Nest)

include hfits hfits' halign

/-- Sessions whose drafts end before the same grid line, and become the same with the data: what
adds them comes to the same in both, or is refused in both. -/
theorem perform_alike {data : Bytes} (hdata : a.data? = some data)
    (hsame : m'.extended data = m.extended data) :
    let s : Session := ⟨ofMessage m capacity, nests⟩
    let s' : Session := ⟨ofMessage m' capacity, nests⟩
    (∃ next, s.perform a = (none, next) ∧ s'.perform a = (none, next)) ∨
    ∃ e, s.perform a = (some e, s) ∧ s'.perform a = (some e, s') := by
  intro s s'
  have hadds := Action.adds_of_data hfits hdata
  have hadds' := Action.adds_of_data hfits' hdata
  rw [Action.Adds, Action.HasRoom, halign, hsame] at hadds'
  rcases hadds with ⟨hroom, hedit⟩ | ⟨hfull, hedit⟩
  · have hedit' := (hadds'.resolve_right fun hfull => hfull.1 hroom).2
    rw [perform, perform, hedit, hedit']
    exact .inl ⟨_, rfl, rfl⟩
  · have hedit' := (hadds'.resolve_left fun hroom => hfull hroom.1).2
    rw [perform, perform, hedit, hedit']
    exact .inr ⟨_, rfl, rfl⟩

/-- A row of actions that add data has the same outcomes in both, and comes to the same as soon as
one of them is carried out. -/
theorem run_alike (hsame : ∀ data, m'.extended data = m.extended data) {later : List Action}
    (hlater : ∀ a ∈ later, a.data?.isSome) :
    let s : Session := ⟨ofMessage m capacity, nests⟩
    let s' : Session := ⟨ofMessage m' capacity, nests⟩
    s'.outcomes later = s.outcomes later ∧
      (s'.run later = s.run later ∨ (s'.run later = s' ∧ s.run later = s)) := by
  intro s s'
  induction later with
  | nil => exact ⟨rfl, .inr ⟨rfl, rfl⟩⟩
  | cons a later ih =>
      obtain ⟨hfirst, hothers⟩ := List.forall_mem_cons.1 hlater
      obtain ⟨data, hdata⟩ := Option.isSome_iff_exists.1 hfirst
      rw [outcomes, outcomes, Session.run, Session.run]
      rcases perform_alike hfits hfits' halign nests hdata (hsame data) with
        ⟨next, hperform, hperform'⟩ | ⟨e, hperform, hperform'⟩
      · rw [hperform, hperform']
        exact ⟨rfl, .inl rfl⟩
      · rw [hperform, hperform']
        obtain ⟨houtcomes, hrun⟩ := ih hothers
        exact ⟨congrArg (some e :: ·) houtcomes, hrun⟩

end

/-! ## Taking the nest back -/

/-- Dropping the nest that was opened after the message, whatever was built since, comes back to the
message with its payload padded, but for the lengths of nests from before that were closed since. -/
theorem Carries.takes_back (h : Carries type flags capacity s m) {kind : UInt16} {opened : Session}
    (hopen : s.perform (.openNest kind) = (none, opened)) {between : List Action}
    (hbetween : opened.Permits between) (hbuilds : ∀ a ∈ between, a.builds) :
    ∃ m', (opened.run between).perform (.dropNest ⟨align s.draft.length⟩) =
        (none, ⟨ofMessage m' capacity, s.nests⟩) ∧
      m'.header = (m.withPayload m.payload.padded).header ∧
      m'.payload.length = m.payload.padded.length ∧
      (m.withPayload m.payload.padded).Grows
        (fun place => ∀ outer ∈ s.nests, .closeNest outer ∈ between →
          place < outer.offset ∨ outer.offset + 2 ≤ place) m' := by
  obtain ⟨hnests, hopened⟩ := h.of_openNest hopen
  obtain ⟨last, hlast, hgrows, hprefix⟩ := hopened.run_builds hbetween hbuilds
  have hstart : align s.draft.length = size + m.payload.padded.length := by
    rw [h.draft_eq, align_ofMessage]
  rw [hnests, hstart] at hprefix
  rw [hstart]
  have hmem : ⟨size + m.payload.padded.length⟩ ∈ (opened.run between).nests :=
    hprefix.subset (List.mem_append_right _ (List.mem_singleton_self _))
  obtain ⟨hdrop, -⟩ := hlast.dropped hmem
  rw [hlast.placed.takeWhile_eq hprefix] at hdrop
  have htaken := hgrows.takenBack
  have hlength : (last.payload.take m.payload.padded.length).length = m.payload.padded.length :=
    Nat.le_antisymm (List.length_take_le _ _) htaken.length_le
  have hheader : (last.withPayload (last.payload.take m.payload.padded.length)).header =
      (m.withPayload m.payload.padded).header := by
    rw [htaken.header_eq]
    simp only [Message.withPayload, hlength]
  refine ⟨_, hdrop, hheader, hlength, htaken.mono ?_⟩
  intro place hplace hspared a ha other hclose
  subst hclose
  have hother := hopened.mem_nests_of_closed hbetween hbuilds ha
  rcases hlast.placed.mem_or_le hprefix hother with hbase | hbehind
  · exact hspared other hbase ha
  · exact .inl (Nat.lt_of_lt_of_le hplace hbehind)

/-- Padding the payload changes a session just when it does not end on the grid. -/
theorem Carries.padded_eq_iff (h : Carries type flags capacity s m) :
    (⟨ofMessage (m.withPayload m.payload.padded) capacity, s.nests⟩ : Session) = s ↔
      s.draft.length % 4 = 0 := by
  have hlength : s.draft.length = size + m.payload.length := congrArg Draft.length h.draft_eq
  constructor
  · intro hsame
    have hend : size + m.payload.padded.length = s.draft.length :=
      congrArg (·.draft.length) hsame
    have hmod := align_mod_four m.payload.length
    rw [← hend, length_padded]
    simp only [size]
    omega
  · intro hmod
    have hpayload : m.payload.length % 4 = 0 := by
      rw [hlength] at hmod
      simp only [size] at hmod
      omega
    have hheader :
        { m.header with length := UInt32.ofNat (size + m.payload.length) } = m.header := by
      rw [← h.length_eq]
    rw [padded_of_aligned hpayload, Message.withPayload, hheader, ← h.draft_eq]

/-- A nest that is taken back, whatever was built in it or behind it, leaves what was there before:
the nests, and each byte behind the length in the header that is not in the length of a nest from
before that was closed meanwhile.  The draft ends on the grid then, where the nest began.  So where
no such nest was closed it is the one from before but for its length, and that one itself just when
it ended on the grid.  Whatever is added next is put in the same places then, or refused with the
same errors, and comes to the same session as soon as something is put. -/
theorem dropNest_takes_back (type : MessageType) (flags : MessageFlags) (capacity : Nat)
    {before : List Action} (hbefore : (begun type flags capacity).Permits before)
    {kind : UInt16} {opened : Session}
    (hopen : ((begun type flags capacity).run before).perform (.openNest kind) = (none, opened))
    {between : List Action} (hbetween : opened.Permits between)
    (hbuilds : ∀ a ∈ between, a.builds) :
    let s := (begun type flags capacity).run before
    let nest : Nest := ⟨align s.draft.length⟩
    opened.nests = s.nests ++ [nest] ∧
    ∃ s', (opened.run between).perform (.dropNest nest) = (none, s') ∧
      s'.nests = s.nests ∧
      s'.draft.length = align s.draft.length ∧
      s'.draft.header = { s.draft.header with length := UInt32.ofNat (align s.draft.length) } ∧
      (∀ place, 4 ≤ place →
        (∀ outer ∈ s.nests, .closeNest outer ∈ between →
          place < outer.offset ∨ outer.offset + 2 ≤ place) →
        s'.draft.buffer[place]? = s.draft.buffer[place]?) ∧
      ((∀ outer ∈ s.nests, .closeNest outer ∉ between) →
        s'.draft = s.draft.withLength (align s.draft.length) ∧
        (s' = s ↔ s.draft.length % 4 = 0) ∧
        ∀ later : List Action, (∀ a ∈ later, a.data?.isSome) →
          s'.outcomes later = s.outcomes later ∧
          (s'.run later = s.run later ∨ (s'.run later = s' ∧ s.run later = s))) := by
  intro s nest
  obtain ⟨m, hm⟩ := (carries_begun type flags capacity).run hbefore
  have hm : Carries type flags (max capacity size) s m := hm
  have halign : align s.draft.length = size + m.payload.padded.length := by
    rw [hm.draft_eq, align_ofMessage]
  obtain ⟨hnests, hopened⟩ := hm.of_openNest hopen
  obtain ⟨m', hdrop, hheader, hlength, hgrows⟩ := hm.takes_back hopen hbetween hbuilds
  have hpadded := hopened.fits.of_extended
  have hdraft := withLength_align_ofMessage hpadded
  rw [← hm.draft_eq] at hdraft
  refine ⟨hnests, _, hdrop, rfl, ?_, ?_, ?_, ?_⟩
  · change size + m'.payload.length = _
    rw [hlength, halign]
  · rw [header_ofMessage, hheader, hm.draft_eq, header_ofMessage, ← hm.draft_eq, halign]
    rfl
  · intro place hplace hspared
    rw [getElem?_buffer_of_grows hgrows hheader hlength hspared, ← hdraft]
    refine getElem?_overwrite_of_outside _ (Nat.zero_le _) (.inr ?_)
    rwa [length_ofUInt32, Nat.zero_add]
  · intro hunclosed
    have hspared : ∀ place, ∀ outer ∈ s.nests, .closeNest outer ∈ between →
        place < outer.offset ∨ outer.offset + 2 ≤ place :=
      fun _ outer houter hclose => absurd hclose (hunclosed outer houter)
    obtain rfl := hgrows.eq hspared hheader hlength
    refine ⟨hdraft.symm, hm.padded_eq_iff, fun later hlater => ?_⟩
    have halike := run_alike hm.fits hpadded align_ofMessage_padded s.nests
      (fun data => m.extended_withPayload_padded data) hlater
    rwa [← hm.draft_eq] at halike

def halfBuilt : List Action :=
  [.append [1, 2, 3, 4, 5], .openNest 8, .appendAttribute 1 [6, 7, 8]]

def abandoned : List Action :=
  [.appendWord 2 9, .openNest 10, .append [1], .closeNest ⟨48⟩, .closeNest ⟨36⟩]

theorem dropNest_takes_back_abandoned :
    let s := (begun .newRoute .request 64).run halfBuilt
    let opened := (s.perform (.openNest 9)).2
    opened.nests = [⟨24⟩, ⟨36⟩] ∧
    (opened.run abandoned).nests = [⟨24⟩, ⟨36⟩, ⟨48⟩] ∧
    ∃ s', (opened.run abandoned).perform (.dropNest ⟨36⟩) = (none, s') ∧
      s'.nests = [⟨24⟩] ∧ s'.draft = s.draft.withLength 36 ∧ s' ≠ s ∧
      s'.run [.append (zeros 32), .appendWord 3 7] =
        s.run [.append (zeros 32), .appendWord 3 7] := by
  intro s opened
  have hbefore : (begun .newRoute .request 64).Permits halfBuilt := by decide
  have hopen : s.perform (.openNest 9) = (none, opened) := by decide
  have hbetween : opened.Permits abandoned := by decide
  obtain ⟨-, s', hdrop, hnests, -, -, -, hunclosed⟩ :=
    dropNest_takes_back .newRoute .request 64 hbefore hopen hbetween (by decide)
  obtain ⟨hdraft, hsame, halike⟩ := hunclosed (by decide)
  obtain ⟨-, hrun⟩ := halike [.append (zeros 32), .appendWord 3 7] (by decide)
  refine ⟨by decide, by decide, s', hdrop, hnests, hdraft, ?_, ?_⟩
  · rw [Ne, hsame]
    decide
  · exact hrun.resolve_right fun hunchanged => absurd hunchanged.2 (by decide)

/-- One byte of padding was put behind three bytes of payload to start a nest there, and stays when
the nest is taken back at once. -/
theorem dropNest_keeps_padding :
    let s := (begun .newRoute .request 64).run [.appendAttribute 1 [1, 2, 3]]
    let opened := (s.perform (.openNest 8)).2
    let s' := (opened.perform (.dropNest ⟨24⟩)).2
    (begun .newRoute .request 64).Permits
      [.appendAttribute 1 [1, 2, 3], .openNest 8, .dropNest ⟨24⟩] ∧
    (s.perform (.openNest 8)).1 = none ∧ opened.nests = [⟨24⟩] ∧
    (s.draft.length, s.draft.header.length) = (23, 23) ∧
    (s'.draft.length, s'.draft.header.length) = (24, 24) ∧
    s'.draft.bytes.drop 4 = s.draft.bytes.drop 4 ++ [0] := by
  decide

end Session

end Draft

end RouteControl
