import RouteControl.Proofs.Draft.Contents
import RouteControl.Proofs.Draft.Session

/-!
# Lengths of nests

Closing a nest is never refused, and it changes nothing but the length in the header of the nest
(`Carries.closes`).  That length is the distance to the end of the message cut to sixteen bits, so
that it is right just when the distance fits into it; in a buffer of up to 65551 bytes it always
does.  What is added is refused only where the buffer has no room for it, or where it is itself an
attribute too long for its header: whether the nests that are open can tell their length is asked
nowhere (`nest_length_of_permits`), and there are nests that cannot (`oversized_nest_wraps`).
-/

namespace RouteControl.Draft.Session

open MessageHeader Bytes

variable {type : MessageType} {flags : MessageFlags} {capacity : Nat} {s : Session} {m : Message}
  {nest : Nest}

/-! ## Closing a nest -/

/-- The second session is the first after the nest was closed: the header of the nest tells the
distance to the end, cut to sixteen bits, and all else is as it was. -/
structure Closes (s s' : Session) (nest : Nest) : Prop where
  nests_eq : s'.nests = s.nests
  length_eq : s'.draft.length = s.draft.length
  stored_eq : (s'.draft.buffer.uint16At nest.offset).toNat =
    (s.draft.length - nest.offset) % 65536
  front_eq : s'.draft.buffer.take nest.offset = s.draft.buffer.take nest.offset
  behind_eq : s'.draft.buffer.drop (nest.offset + 2) = s.draft.buffer.drop (nest.offset + 2)

theorem perform_closeNest (s : Session) (nest : Nest) :
    let length := UInt16.ofNat (s.draft.length - nest.offset)
    s.perform (.closeNest nest) =
      (none, ⟨{ s.draft with buffer := s.draft.buffer.overwrite nest.offset (ofUInt16 length) },
        s.nests⟩) := by
  intro length
  have hkept : (Action.closeNest nest).kept s.nests ++ (none : Option Nest).toList = s.nests :=
    List.append_nil _
  unfold perform
  change (none, Session.mk _ _) = _
  rw [hkept]

/-- The header of the nest lies behind that of the message, in what is in use. -/
theorem Carries.offset_bounds (h : Carries type flags capacity s m) (hnest : nest ∈ s.nests) :
    size ≤ nest.offset ∧ nest.offset + AttributeHeader.size ≤ s.draft.length ∧
      s.draft.length ≤ capacity ∧ s.draft.buffer.length = capacity := by
  obtain ⟨hfront, hback⟩ := h.placed.inside nest hnest
  have hlength : s.draft.length = size + m.payload.length := by
    rw [h.draft_eq]
    rfl
  have hcapacity : s.draft.buffer.length = capacity := by
    rw [h.draft_eq]
    exact capacity_ofMessage h.fits
  refine ⟨hfront, ?_, ?_, hcapacity⟩
  · rwa [hlength]
  · rw [hlength]
    exact h.fits

theorem Carries.closes (h : Carries type flags capacity s m) (hnest : nest ∈ s.nests) :
    ∃ s', s.perform (.closeNest nest) = (none, s') ∧ Closes s s' nest := by
  obtain ⟨-, hback, hused, hcapacity⟩ := h.offset_bounds hnest
  have hstart : nest.offset ≤ s.draft.buffer.length := by omega
  refine ⟨_, perform_closeNest s nest, ?_⟩
  constructor
  case nests_eq => rfl
  case length_eq => rfl
  case stored_eq =>
    simp only
    rw [uint16At_overwrite hstart]
    exact UInt16.toNat_ofNat'
  case front_eq => exact take_overwrite _ hstart
  case behind_eq =>
    have hdrop := drop_overwrite (ofUInt16 (UInt16.ofNat (s.draft.length - nest.offset))) hstart
    rwa [length_ofUInt16] at hdrop

/-- Whatever was done to a draft, each nest that was opened and not taken back can be closed, and
its header tells its length just when that is a number of sixteen bits, as it always is in a buffer
of up to 65551 bytes.  No action is refused for the length of a nest. -/
theorem nest_length_of_permits (type : MessageType) (flags : MessageFlags) (capacity : Nat)
    {actions : List Action} (hactions : (begun type flags capacity).Permits actions) :
    let s := (begun type flags capacity).run actions
    (∀ nest ∈ s.nests, ∃ s', s.perform (.closeNest nest) = (none, s') ∧ Closes s s' nest ∧
      let stored := (s'.draft.buffer.uint16At nest.offset).toNat
      let distance := s.draft.length - nest.offset
      (stored = distance ↔ distance ≤ 65535) ∧ (capacity ≤ 65551 → stored = distance)) ∧
    ∀ a, s.Allows a →
      ((s.perform a).1 = none ↔ a.HasRoom (max capacity size) s.draft.length) := by
  intro s
  obtain ⟨m, hm⟩ := (carries_begun type flags capacity).run hactions
  constructor
  · intro nest hnest
    obtain ⟨s', hperform, hcloses⟩ := hm.closes hnest
    obtain ⟨hfront, hback, hused, -⟩ := hm.offset_bounds hnest
    refine ⟨s', hperform, hcloses, ?_⟩
    intro stored distance
    have hstored : stored = distance % 65536 := hcloses.stored_eq
    constructor
    · omega
    · intro hsmall
      have hdistance : distance ≤ max capacity 16 - 16 :=
        Nat.le_trans (Nat.sub_le_sub_right hused _) (Nat.sub_le_sub_left hfront _)
      omega
  · intro a ha
    rcases hm.advances ha with ⟨hroom, s', m', hperform, -⟩ | ⟨hfull, data, -, hperform⟩
    · exact iff_of_true (by rw [hperform]) hroom
    · exact iff_of_false (by rw [hperform]; exact Option.some_ne_none _) hfull

def shortNest : List Action := [.openNest 8, .appendAttribute 1 [1, 2, 3]]

theorem nest_length_of_permits_shortNest :
    (begun .newRoute .request 40).Permits shortNest ∧
    ((begun .newRoute .request 40).run shortNest).nests = [⟨16⟩] ∧
    ∃ s', ((begun .newRoute .request 40).run shortNest).perform (.closeNest ⟨16⟩) = (none, s') ∧
      (s'.draft.buffer.uint16At 16).toNat = 11 := by
  have hpermits : (begun .newRoute .request 40).Permits shortNest := by decide
  have hnests : ((begun .newRoute .request 40).run shortNest).nests = [⟨16⟩] := by decide
  obtain ⟨hclose, -⟩ := nest_length_of_permits .newRoute .request 40 hpermits
  have hmem : ⟨16⟩ ∈ ((begun .newRoute .request 40).run shortNest).nests := by
    rw [hnests]
    exact List.mem_singleton_self _
  obtain ⟨s', hperform, -, -, hexact⟩ := hclose ⟨16⟩ hmem
  exact ⟨hpermits, hnests, s', hperform, hexact (by decide)⟩

/-! ## A nest that is too long -/

/-- What comes of each action. -/
def outcomes : Session → List Action → List (Option Error)
  | _, [] => []
  | s, a :: actions => (s.perform a).1 :: (s.perform a).2.outcomes actions

section Holding

variable {f : Form} {payload : Bytes}

private theorem perform_openNest_holding (kind : UInt16) (nests : List Nest)
    (hroom : f.Fits (payload.padded ++ (opening kind).bytes)) :
    (Session.mk (f.holding payload) nests).perform (.openNest kind) =
      (none, ⟨f.holding (payload.padded ++ (opening kind).bytes),
        nests ++ [⟨size + payload.padded.length⟩]⟩) := by
  have hopen := openNest_holding (fits_of_fits_written hroom) kind
  rw [if_pos hroom] at hopen
  unfold perform
  rw [Action.edit, bind_of_ok hopen]
  rfl

private theorem perform_appendAttribute_holding {a : Attribute} (ha : a.Fits) (nests : List Nest)
    (hroom : f.Fits (stack payload [a.bytes])) :
    (Session.mk (f.holding payload) nests).perform (.appendAttribute a.type a.payload) =
      (none, ⟨f.holding (stack payload [a.bytes]), nests⟩) := by
  have hwrite := (writes_appendAttribute ha).room f hroom
  have hkept : (Action.appendAttribute a.type a.payload).kept nests ++ (none : Option Nest).toList =
      nests := List.append_nil _
  unfold perform
  rw [Action.edit, bind_of_ok hwrite]
  change (none, Session.mk _ _) = _
  rw [hkept]

end Holding

/-- Two attributes, the second as long as an attribute may be, in one nest. -/
def oversized : List Action :=
  [.openNest 8, .appendAttribute 1 (zeros 4), .appendAttribute 2 (zeros 65531), .closeNest ⟨16⟩]

/-- Each of the actions is carried out, and the header of the nest tells eleven bytes where there
are 65547. -/
theorem oversized_nest_wraps :
    let start := begun .newRoute .request 70000
    let s := start.run oversized
    start.Permits oversized ∧ start.outcomes oversized = [none, none, none, none] ∧
    s.nests = [⟨16⟩] ∧ s.draft.length - 16 = 65547 ∧ (s.draft.buffer.uint16At 16).toNat = 11 := by
  let f := Form.ofCapacity .newRoute .request 70000
  let first : Attribute := ⟨1, zeros 4⟩
  let second : Attribute := ⟨2, zeros 65531⟩
  let opened : Bytes := Bytes.padded [] ++ (opening 8).bytes
  let row := stack opened [first.bytes]
  have hfirst : first.Fits := Attribute.fits_of_length_le (by rw [length_zeros]; decide)
  have hsecond : second.Fits := Attribute.fits_of_length_le (by rw [length_zeros]; decide)
  have hrow : row.length = 12 := by decide
  have hlength : (stack row [second.bytes]).length = 65547 := by
    rw [stack_singleton, List.length_append, length_padded, hrow, Attribute.length_bytes,
      length_zeros]
    rfl
  have hopen : (begun .newRoute .request 70000).perform (.openNest 8) =
      (none, ⟨f.holding opened, [⟨16⟩]⟩) := by
    rw [begun, new_eq_holding]
    exact perform_openNest_holding 8 [] (show f.Fits opened from by decide)
  have happend : (Session.mk (f.holding opened) [⟨16⟩]).perform (.appendAttribute 1 (zeros 4)) =
      (none, ⟨f.holding row, [⟨16⟩]⟩) :=
    perform_appendAttribute_holding hfirst [⟨16⟩] (show f.Fits row from by decide)
  have hroom : f.Fits (stack row [second.bytes]) := by
    unfold Form.Fits
    rw [hlength]
    decide
  have happend' : (Session.mk (f.holding row) [⟨16⟩]).perform (.appendAttribute 2 (zeros 65531)) =
      (none, ⟨f.holding (stack row [second.bytes]), [⟨16⟩]⟩) :=
    perform_appendAttribute_holding hsecond [⟨16⟩] hroom
  have hclose := perform_closeNest ⟨f.holding (stack row [second.bytes]), [⟨16⟩]⟩ ⟨16⟩
  have hdistance : (f.holding (stack row [second.bytes])).length - 16 = 65547 := by
    rw [Form.holding, hlength]
    rfl
  have hstart : 16 ≤ (f.holding (stack row [second.bytes])).buffer.length :=
    (wellFormed_holding hroom).size_le_capacity
  simp only [oversized, Permits, run, outcomes, hopen, happend, happend', hclose]
  refine ⟨⟨trivial, trivial, trivial, List.mem_singleton_self _, trivial⟩, trivial, trivial,
    hdistance, ?_⟩
  rw [uint16At_overwrite hstart, hdistance]
  rfl

end RouteControl.Draft.Session
