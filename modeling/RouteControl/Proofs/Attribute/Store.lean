import RouteControl.Proofs.Attribute.Row

/-!
# Attributes stored in place

An attribute is stored by three writes into a buffer that stays where it is: zeros up to the next
grid line, the header, the payload.  Whether there is room is asked before the first of them, so
that a refusal leaves the buffer as it was (`run_put`).  What is stored says its length and its
type in full and changes nothing in front of it or behind it (`laidBehind_overwrite`).

In a run of stores some succeed and some are refused.  No store touches the bytes in use or those
behind its end (`extends_put`), and so no run does (`extends_putEach`).
-/

namespace RouteControl

private theorem Bytes.ofLittleEndian_ofUInt16 (word : UInt16) :
    ofLittleEndian (ofUInt16 word) = word.toNat := by
  have h := word.toNat_lt
  rw [ofUInt16, ofLittleEndian_littleEndian]
  exact Nat.mod_eq_of_lt h

/-- A part is seen from its offset on, as far as it goes. -/
private theorem Bytes.take_drop_append {front part : Bytes} {offset width : Nat}
    (hoffset : front.length = offset) (hwidth : part.length = width) (behind : Bytes) :
    ((front ++ (part ++ behind)).drop offset).take width = part := by
  rw [List.drop_left' hoffset, List.take_left' hwidth]

namespace Attribute

open Bytes

/-- Stores the attribute behind the first `length` bytes of the buffer, in place. -/
def put (a : Attribute) (length : Nat) : EStateM Error Bytes Nat := do
  let buffer ← get
  let start := align length
  let stop := start + AttributeHeader.size + a.payload.length
  if buffer.length < stop ∨ maxLength < AttributeHeader.size + a.payload.length then
    throw (.bufferTooSmall stop buffer.length)
  modify (·.overwrite length (zeros (start - length)))
  modify (·.overwrite start a.header.bytes)
  modify (·.overwrite (start + AttributeHeader.size) a.payload)
  return stop

def stopBehind (a : Attribute) (length : Nat) : Nat := align length + 4 + a.payload.length

/-- The attribute ends within the buffer, and its header can tell its length. -/
def HasRoom (a : Attribute) (capacity length : Nat) : Prop :=
  a.stopBehind length ≤ capacity ∧ 4 + a.payload.length ≤ 65535

instance (a : Attribute) (capacity length : Nat) : Decidable (a.HasRoom capacity length) := by
  unfold HasRoom
  infer_instance

/-- What the buffer holds after the attribute was stored behind its first `length` bytes. -/
structure LaidBehind (a : Attribute) (length : Nat) (before after : Bytes) : Prop where
  length_eq : after.length = before.length
  front_eq : after.take length = before.take length
  gap_eq : (after.take (align length)).drop length = zeros (align length - length)
  headerLength_eq : ofLittleEndian ((after.drop (align length)).take 2) = 4 + a.payload.length
  headerType_eq : ofLittleEndian ((after.drop (align length + 2)).take 2) = a.type.toNat
  payload_eq : (after.drop (align length + 4)).take a.payload.length = a.payload
  behind_eq : after.drop (a.stopBehind length) = before.drop (a.stopBehind length)

variable {a : Attribute} {buffer : Bytes} {length : Nat}

/-! ## One store -/

private theorem length_gap_bytes (a : Attribute) (length : Nat) :
    length + (zeros (align length - length) ++ a.bytes).length = a.stopBehind length := by
  have hle := le_align length
  rw [List.length_append, length_zeros, length_bytes, stopBehind, AttributeHeader.size]
  omega

theorem run_put (a : Attribute) (h : length ≤ buffer.length) :
    (a.put length).run buffer =
      match a.write buffer length with
      | .ok (after, stop) => .ok stop after
      | .error e => .error e buffer := by
  by_cases hfull : buffer.length < align length + AttributeHeader.size + a.payload.length ∨
      maxLength < AttributeHeader.size + a.payload.length
  · rw [write, if_pos hfull]
    change (ite _ _ _ : EStateM Error Bytes Nat) buffer = _
    rw [if_pos hfull]
    rfl
  · have hle := le_align length
    let gap := zeros (align length - length)
    have hgap : length + gap.length = align length := by
      rw [length_zeros]
      omega
    have hheader := overwrite_overwrite gap a.header.bytes h
    have hpayload := overwrite_overwrite (gap ++ a.header.bytes) a.payload h
    rw [hgap] at hheader
    rw [List.length_append, a.header.length_bytes, ← Nat.add_assoc, hgap, List.append_assoc,
      ← hheader] at hpayload
    rw [write, if_neg hfull]
    change (ite _ _ _ : EStateM Error Bytes Nat) buffer = _
    rw [if_neg hfull]
    exact congrArg (EStateM.Result.ok _) hpayload

private theorem laidBehind_overwrite (ha : a.Fits) (hlength : length ≤ buffer.length)
    (hroom : a.stopBehind length ≤ buffer.length) :
    a.LaidBehind length buffer
      (buffer.overwrite length (zeros (align length - length) ++ a.bytes)) := by
  have hle := le_align length
  have hstop := length_gap_bytes a length
  have htaken : (buffer.take length).length = length := by
    rw [List.length_take, Nat.min_eq_left hlength]
  let front := buffer.take length ++ zeros (align length - length)
  have hfront : front.length = align length := by
    rw [List.length_append, htaken, length_zeros]
    omega
  let lengthField := ofUInt16 a.header.length
  let typeField := ofUInt16 a.header.type
  let behind := buffer.drop (a.stopBehind length)
  have hafter : buffer.overwrite length (zeros (align length - length) ++ a.bytes) =
      front ++ (lengthField ++ (typeField ++ (a.payload ++ behind))) := by
    rw [overwrite, hstop, bytes, AttributeHeader.bytes]
    simp only [front, lengthField, typeField, behind, List.append_assoc]
  have hheader : (front ++ lengthField).length = align length + 2 := by
    rw [List.length_append, hfront, length_ofUInt16]
  have hpayload : (front ++ lengthField ++ typeField).length = align length + 4 := by
    rw [List.length_append, hheader, length_ofUInt16]
  constructor
  case length_eq => exact length_overwrite (by rwa [hstop])
  case front_eq => exact take_overwrite _ hlength
  case gap_eq =>
    rw [hafter, List.take_left' hfront]
    exact List.drop_left' htaken
  case headerLength_eq =>
    rw [hafter, take_drop_append hfront (length_ofUInt16 _), ofLittleEndian_ofUInt16]
    exact UInt16.toNat_ofNat_of_lt' (Nat.lt_succ_of_le ha)
  case headerType_eq =>
    rw [hafter, ← List.append_assoc, take_drop_append hheader (length_ofUInt16 _),
      ofLittleEndian_ofUInt16]
    rfl
  case payload_eq =>
    rw [hafter, ← List.append_assoc, ← List.append_assoc, take_drop_append hpayload rfl]
  case behind_eq =>
    rw [← hstop]
    exact drop_overwrite _ hlength

theorem put_of_room (hlength : length ≤ buffer.length) (h : a.HasRoom buffer.length length) :
    ∃ after, (a.put length).run buffer = .ok (a.stopBehind length) after ∧
      a.LaidBehind length buffer after := by
  obtain ⟨hroom, ha⟩ := h
  refine ⟨_, ?_, laidBehind_overwrite ha hlength hroom⟩
  rw [run_put a hlength, write, if_neg]
  · rfl
  · exact not_or.2 ⟨Nat.not_lt_of_le hroom, Nat.not_lt_of_le ha⟩

theorem put_of_not_room (hlength : length ≤ buffer.length)
    (h : ¬a.HasRoom buffer.length length) :
    (a.put length).run buffer =
      .error (.bufferTooSmall (a.stopBehind length) buffer.length) buffer := by
  have hrefused : buffer.length < a.stopBehind length ∨ 65535 < 4 + a.payload.length := by
    unfold HasRoom at h
    omega
  rw [run_put a hlength, write, if_pos]
  · rfl
  · exact hrefused

/-! ## Runs of stores -/

structure Row where
  buffer : Bytes
  length : Nat

namespace Row

variable {row mid last : Row} {a : Attribute} {attributes : List Attribute}

/-- Stores the attribute behind the bytes in use, which are more after that unless it is refused. -/
def put (row : Row) (a : Attribute) : Except Error Nat × Row :=
  match (a.put row.length).run row.buffer with
  | .ok stop buffer => (.ok stop, ⟨buffer, stop⟩)
  | .error e buffer => (.error e, ⟨buffer, row.length⟩)

/-- Stores attribute after attribute, whatever comes of each. -/
def putEach (row : Row) : List Attribute → List (Except Error Nat) × Row
  | [] => ([], row)
  | a :: rest =>
    let (result, row) := row.put a
    let (results, row) := row.putEach rest
    (result :: results, row)

def stops : Nat → List Attribute → List Nat
  | _, [] => []
  | length, a :: rest => a.stopBehind length :: stops (a.stopBehind length) rest

/-- Where the last of the attributes ends when none is refused. -/
def extent (length : Nat) (attributes : List Attribute) : Nat :=
  attributes.foldl (fun length a => a.stopBehind length) length

def Standing (row : Row) : Prop := row.length ≤ row.buffer.length

/-- The second row came from the first by stores: what was in use is in use still and as it was, and
so is what is not in use yet. -/
structure Extends (row last : Row) : Prop where
  capacity_eq : last.buffer.length = row.buffer.length
  length_le : row.length ≤ last.length
  standing : last.Standing
  front_eq : last.buffer.take row.length = row.buffer.take row.length
  behind_eq : last.buffer.drop last.length = row.buffer.drop last.length

theorem Extends.refl (h : row.Standing) : row.Extends row :=
  ⟨rfl, Nat.le_refl _, h, rfl, rfl⟩

theorem Extends.trans (hfirst : row.Extends mid) (hsecond : mid.Extends last) :
    row.Extends last where
  capacity_eq := hsecond.capacity_eq.trans hfirst.capacity_eq
  length_le := Nat.le_trans hfirst.length_le hsecond.length_le
  standing := hsecond.standing
  front_eq := by
    have htake := congrArg (List.take row.length) hsecond.front_eq
    rw [List.take_take, List.take_take, Nat.min_eq_left hfirst.length_le] at htake
    exact htake.trans hfirst.front_eq
  behind_eq := by
    have hdrop := congrArg (List.drop (last.length - mid.length)) hfirst.behind_eq
    rw [List.drop_drop, List.drop_drop, Nat.add_sub_cancel' hsecond.length_le] at hdrop
    exact hsecond.behind_eq.trans hdrop

theorem put_of_room (h : row.Standing) (hroom : a.HasRoom row.buffer.length row.length) :
    ∃ buffer, row.put a = (.ok (a.stopBehind row.length), ⟨buffer, a.stopBehind row.length⟩) ∧
      a.LaidBehind row.length row.buffer buffer := by
  obtain ⟨buffer, hput, hlaid⟩ := Attribute.put_of_room h hroom
  exact ⟨buffer, by rw [put, hput], hlaid⟩

theorem put_of_not_room (h : row.Standing) (hroom : ¬a.HasRoom row.buffer.length row.length) :
    row.put a = (.error (.bufferTooSmall (a.stopBehind row.length) row.buffer.length), row) := by
  rw [put, Attribute.put_of_not_room h hroom]

private theorem le_stopBehind (a : Attribute) (length : Nat) : length ≤ a.stopBehind length := by
  have hle := le_align length
  unfold stopBehind
  omega

theorem extends_put (h : row.Standing) (a : Attribute) : row.Extends (row.put a).2 := by
  by_cases hroom : a.HasRoom row.buffer.length row.length
  · obtain ⟨buffer, hput, hlaid⟩ := put_of_room h hroom
    rw [hput]
    constructor
    case capacity_eq => exact hlaid.length_eq
    case length_le => exact le_stopBehind a row.length
    case standing =>
      unfold Standing
      rw [hlaid.length_eq]
      exact hroom.1
    case front_eq => exact hlaid.front_eq
    case behind_eq => exact hlaid.behind_eq
  · rw [put_of_not_room h hroom]
    exact .refl h

theorem extends_putEach (h : row.Standing) (attributes : List Attribute) :
    row.Extends (row.putEach attributes).2 := by
  induction attributes generalizing row with
  | nil => exact .refl h
  | cons a rest ih =>
      have hfirst := extends_put h a
      exact hfirst.trans (ih hfirst.standing)

theorem putEach_append (row : Row) (first second : List Attribute) :
    row.putEach (first ++ second) =
      ((row.putEach first).1 ++ ((row.putEach first).2.putEach second).1,
        ((row.putEach first).2.putEach second).2) := by
  induction first generalizing row with
  | nil => rfl
  | cons a rest ih =>
      simp only [List.cons_append, putEach, ih]

private theorem le_extent (length : Nat) (attributes : List Attribute) :
    length ≤ extent length attributes := by
  induction attributes generalizing length with
  | nil => exact Nat.le_refl _
  | cons a rest ih => exact Nat.le_trans (le_stopBehind a length) (ih _)

/-- As long as there is room for all, none is refused. -/
theorem putEach_of_room (h : row.Standing) (hfits : ∀ a ∈ attributes, a.Fits)
    (hroom : extent row.length attributes ≤ row.buffer.length) :
    (row.putEach attributes).1 = (stops row.length attributes).map .ok ∧
      (row.putEach attributes).2.length = extent row.length attributes := by
  induction attributes generalizing row with
  | nil => exact ⟨rfl, rfl⟩
  | cons a rest ih =>
      obtain ⟨ha, hrest⟩ := List.forall_mem_cons.1 hfits
      have hstop : a.stopBehind row.length ≤ row.buffer.length :=
        Nat.le_trans (le_extent _ rest) hroom
      obtain ⟨buffer, hput, hlaid⟩ := put_of_room h ⟨hstop, ha⟩
      let next : Row := ⟨buffer, a.stopBehind row.length⟩
      have hcapacity : next.buffer.length = row.buffer.length := hlaid.length_eq
      have hstanding : next.Standing := Nat.le_trans hstop (Nat.le_of_eq hcapacity.symm)
      have hrestRoom : extent next.length rest ≤ next.buffer.length :=
        Nat.le_trans hroom (Nat.le_of_eq hcapacity.symm)
      obtain ⟨hresults, hlength⟩ := ih hstanding hrest hrestRoom
      rw [putEach, hput]
      exact ⟨congrArg (List.cons _) hresults, hlength⟩

private theorem extent_concat (length : Nat) (front : List Attribute) (a : Attribute) :
    extent length (front ++ [a]) = a.stopBehind (extent length front) := by
  rw [extent, List.foldl_append]
  rfl

/-- Where one byte is missing for the last attribute, it alone is refused. -/
theorem putEach_of_byte_missing (h : row.Standing) {front : List Attribute}
    (hfits : ∀ b ∈ front, b.Fits)
    (hmissing : extent row.length (front ++ [a]) = row.buffer.length + 1) :
    (row.putEach (front ++ [a])).1 =
        (stops row.length front).map .ok ++
          [.error (.bufferTooSmall (row.buffer.length + 1) row.buffer.length)] ∧
      (row.putEach (front ++ [a])).2 = (row.putEach front).2 := by
  rw [extent_concat] at hmissing
  have hroom : extent row.length front ≤ row.buffer.length := by
    have hle := le_align (extent row.length front)
    unfold stopBehind at hmissing
    omega
  obtain ⟨hresults, hlength⟩ := putEach_of_room h hfits hroom
  have hheld := extends_putEach h front
  have hnot : ¬a.HasRoom (row.putEach front).2.buffer.length (row.putEach front).2.length := by
    rw [hheld.capacity_eq, hlength]
    intro hroom
    have hstop := hroom.1
    omega
  have hput := put_of_not_room hheld.standing hnot
  rw [hheld.capacity_eq, hlength, hmissing] at hput
  have hlast : (row.putEach front).2.putEach [a] =
      ([.error (.bufferTooSmall (row.buffer.length + 1) row.buffer.length)],
        (row.putEach front).2) := by
    rw [putEach, hput]
    rfl
  rw [putEach_append, hresults, hlast]
  exact ⟨rfl, rfl⟩

end Row

/-- A store does all or nothing.  It succeeds just where the attribute ends within the buffer and
its header can tell its length; then the attribute lies on the grid behind the bytes in use, and
nothing else is changed.  Otherwise the buffer is as it was.  So in any run of stores, whichever
of them are refused, the bytes in use at any time stay as they are; attributes that fill the
buffer to its end are all stored, and of attributes for which one byte is missing the last is
refused. -/
theorem put_all_or_nothing {buffer : Bytes} {length : Nat} (hlength : length ≤ buffer.length) :
    (∀ a : Attribute,
      ((a.put length).run buffer =
        match a.write buffer length with
        | .ok (after, stop) => .ok stop after
        | .error e => .error e buffer) ∧
      (align length + 4 + a.payload.length ≤ buffer.length ∧ 4 + a.payload.length ≤ 65535 →
        ∃ after, (a.put length).run buffer = .ok (align length + 4 + a.payload.length) after ∧
          a.LaidBehind length buffer after) ∧
      (¬(align length + 4 + a.payload.length ≤ buffer.length ∧ 4 + a.payload.length ≤ 65535) →
        (a.put length).run buffer =
          .error (.bufferTooSmall (align length + 4 + a.payload.length) buffer.length) buffer)) ∧
    let row : Row := ⟨buffer, length⟩
    (∀ first second, (row.putEach first).2.Extends (row.putEach (first ++ second)).2) ∧
    (∀ attributes : List Attribute, (∀ a ∈ attributes, 4 + a.payload.length ≤ 65535) →
      Row.extent length attributes = buffer.length →
      (row.putEach attributes).1 = (Row.stops length attributes).map .ok ∧
        (row.putEach attributes).2.length = buffer.length) ∧
    ∀ (front : List Attribute) (last : Attribute), (∀ a ∈ front, 4 + a.payload.length ≤ 65535) →
      Row.extent length (front ++ [last]) = buffer.length + 1 →
      (row.putEach (front ++ [last])).1 =
          (Row.stops length front).map .ok ++
            [.error (.bufferTooSmall (buffer.length + 1) buffer.length)] ∧
        (row.putEach (front ++ [last])).2 = (row.putEach front).2 := by
  refine ⟨fun a => ⟨run_put a hlength, put_of_room hlength, put_of_not_room hlength⟩, ?_⟩
  intro row
  have hstanding : row.Standing := hlength
  refine ⟨?_, ?_, ?_⟩
  · intro first second
    rw [Row.putEach_append]
    exact Row.extends_putEach (Row.extends_putEach hstanding first).standing second
  · intro attributes hfits hextent
    have hstored := Row.putEach_of_room hstanding hfits (Nat.le_of_eq hextent)
    exact ⟨hstored.1, hstored.2.trans hextent⟩
  · intro front last hfits hmissing
    exact Row.putEach_of_byte_missing hstanding hfits hmissing

def gappedRow : List Attribute := [⟨1, [1, 2, 3]⟩, ⟨0x8002, [4]⟩, ⟨3, []⟩]

def filledRow (capacity : Nat) : Row := ⟨List.replicate capacity 0xFF, 1⟩

/-- Behind one byte in use the row ends at 24.  Where the last attribute is refused for the byte
that is missing, the first lies as it was stored. -/
theorem put_all_or_nothing_gappedRow :
    (filledRow 24).length ≤ (filledRow 24).buffer.length ∧
    (filledRow 23).length ≤ (filledRow 23).buffer.length ∧
    (∀ a ∈ gappedRow, 4 + a.payload.length ≤ 65535) ∧
    Row.extent 1 gappedRow = 24 ∧
    ((filledRow 24).putEach gappedRow).1 = [.ok 11, .ok 17, .ok 24] ∧
    ((filledRow 23).putEach gappedRow).1 = [.ok 11, .ok 17, .error (.bufferTooSmall 24 23)] ∧
    ((filledRow 23).putEach gappedRow).2.buffer.take 11 = [0xFF, 0, 0, 0, 7, 0, 1, 0, 1, 2, 3] ∧
    ((⟨1, [1, 2, 3]⟩ : Attribute).put 1).run (filledRow 10).buffer =
      .error (.bufferTooSmall 11 10) (filledRow 10).buffer := by
  have hstanding : (filledRow 24).length ≤ (filledRow 24).buffer.length := by decide
  have hstanding' : (filledRow 23).length ≤ (filledRow 23).buffer.length := by decide
  have hfits : ∀ a ∈ gappedRow, 4 + a.payload.length ≤ 65535 := by decide
  have hshort : 1 ≤ (filledRow 10).buffer.length := by decide
  obtain ⟨-, -, hfull, -⟩ := put_all_or_nothing hstanding
  obtain ⟨-, hkept, -, hmissing⟩ := put_all_or_nothing hstanding'
  obtain ⟨hone, -⟩ := put_all_or_nothing hshort
  obtain ⟨-, -, hrefused⟩ := hone ⟨1, [1, 2, 3]⟩
  obtain ⟨hresults, -⟩ := hfull gappedRow hfits rfl
  obtain ⟨hresults', -⟩ :=
    hmissing [⟨1, [1, 2, 3]⟩, ⟨0x8002, [4]⟩] ⟨3, []⟩ (by decide) rfl
  have hfront := (hkept [⟨1, [1, 2, 3]⟩] [⟨0x8002, [4]⟩, ⟨3, []⟩]).front_eq
  exact ⟨hstanding, hstanding', hfits, rfl, hresults, hresults', hfront, hrefused (by decide)⟩

end Attribute

end RouteControl
