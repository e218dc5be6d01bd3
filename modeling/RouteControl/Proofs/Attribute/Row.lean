import RouteControl.Proofs.Attribute.Framing
import RouteControl.Proofs.Attribute.Kind
import RouteControl.Proofs.Bytes.Overwrite

/-!
# Rows of attributes in buffers

Attributes written one behind the other lie in the buffer as a stack of their bytes behind what the
buffer held before; the rest of the buffer is as it was (`writeAll_of_room`).  So they are read back
from where they were written, by their kinds and payloads, and bytes that follow them are read as
they are on their own (`entries_writeAll`).
-/

namespace RouteControl.Attribute

open Bytes

/-- Writes attributes one behind the other, each behind the length that the one before it left. -/
def writeAll : List Attribute → Bytes → Nat → Except Error (Bytes × Nat)
  | [], buffer, length => .ok (buffer, length)
  | a :: rest, buffer, length => do
    let (buffer, length) ← a.write buffer length
    writeAll rest buffer length

/-- The kinds and payloads of the attributes in some bytes. -/
def entries (bytes : Bytes) : List (UInt16 × Bytes) :=
  (walk bytes).map fun a => (a.kind, a.payload)

variable {a : Attribute} {attributes : List Attribute} {buffer : Bytes} {length : Nat}

theorem write_of_room (ha : a.Fits) (hlength : length ≤ buffer.length)
    (hroom : (stack (buffer.take length) [a.bytes]).length ≤ buffer.length) :
    a.write buffer length =
      .ok (buffer.overwrite 0 (stack (buffer.take length) [a.bytes]),
        (stack (buffer.take length) [a.bytes]).length) := by
  have hle := le_align length
  have htaken : (buffer.take length).length = length := by
    rw [List.length_take, Nat.min_eq_left hlength]
  have hheld : stack (buffer.take length) [a.bytes] =
      buffer.take length ++ (zeros (align length - length) ++ a.bytes) := by
    rw [stack_cons, stack_nil, padded, htaken, List.append_assoc]
  have hstop : (stack (buffer.take length) [a.bytes]).length =
      align length + AttributeHeader.size + a.payload.length := by
    rw [hheld, List.length_append, List.length_append, length_zeros, length_bytes, htaken]
    omega
  rw [write, ← hstop, if_neg (not_or.2 ⟨Nat.not_lt_of_le hroom, Nat.not_lt_of_le ha⟩),
    overwrite_eq_overwrite_zero _ hlength, ← hheld]

theorem writeAll_of_room (h : ∀ a ∈ attributes, a.Fits) (hlength : length ≤ buffer.length)
    (hroom : (stack (buffer.take length) (attributes.map bytes)).length ≤ buffer.length) :
    writeAll attributes buffer length =
      .ok (buffer.overwrite 0 (stack (buffer.take length) (attributes.map bytes)),
        (stack (buffer.take length) (attributes.map bytes)).length) := by
  induction attributes generalizing buffer length with
  | nil =>
      rw [writeAll, List.map_nil, stack_nil, overwrite_zero, List.length_take,
        Nat.min_eq_left hlength, List.take_append_drop]
  | cons a rest ih =>
      obtain ⟨ha, hrest⟩ := List.forall_mem_cons.1 h
      let held := stack (buffer.take length) [a.bytes]
      have hstack : stack (buffer.take length) ((a :: rest).map bytes) =
          stack held (rest.map bytes) := rfl
      rw [hstack] at hroom ⊢
      have hle := length_le_stack held (rest.map bytes)
      have hheld : held.length ≤ buffer.length := Nat.le_trans hle hroom
      have hsame : (buffer.overwrite 0 held).length = buffer.length :=
        length_overwrite (by rwa [Nat.zero_add])
      have htake : (buffer.overwrite 0 held).take held.length = held := by
        rw [overwrite_zero, List.take_left]
      have hnext : writeAll rest (buffer.overwrite 0 held) held.length = _ :=
        ih hrest (by rwa [hsame]) (by rwa [htake, hsame])
      rw [htake, overwrite_zero_overwrite_zero buffer hle] at hnext
      rw [writeAll, write_of_room ha hlength hheld]
      exact hnext

/-- Attributes that are written one behind the other, from a grid line on and into any buffer that
has room for them, are read back in order from where they lie.  With the last one padded, whatever
follows adds what it is read as on its own and changes nothing. -/
theorem entries_writeAll {attributes : List Attribute}
    (hfree : ∀ a ∈ attributes, AttributeHeader.IsFree a.type)
    (hlength : ∀ a ∈ attributes, a.payload.length ≤ 65531) {start : Nat} (hstart : start % 4 = 0)
    (buffer : Bytes) (hroom : start + (stack [] (attributes.map bytes)).length ≤ buffer.length) :
    ∃ buffer' stop, writeAll attributes buffer start = .ok (buffer', stop) ∧
      let region : Bytes := (buffer'.take stop).drop start
      entries region = attributes.map (fun a => (a.type, a.payload)) ∧
      ∀ tail, entries (region.padded ++ tail) =
        attributes.map (fun a => (a.type, a.payload)) ++ entries tail := by
  have hfits : ∀ a ∈ attributes, a.Fits := fun a ha => fits_of_length_le (hlength a ha)
  have hbegin : start ≤ buffer.length := Nat.le_trans (Nat.le_add_right _ _) hroom
  have htaken : (buffer.take start).length = start := by
    rw [List.length_take, Nat.min_eq_left hbegin]
  have hstack : stack (buffer.take start) (attributes.map bytes) =
      buffer.take start ++ stack [] (attributes.map bytes) := by
    have happend := stack_append (by rwa [htaken]) [] (attributes.map bytes)
    rwa [List.append_nil] at happend
  have hextent : (stack (buffer.take start) (attributes.map bytes)).length ≤ buffer.length := by
    rwa [hstack, List.length_append, htaken]
  have hregion : (((buffer.overwrite 0 (stack (buffer.take start) (attributes.map bytes))).take
      (stack (buffer.take start) (attributes.map bytes)).length).drop start) =
      stack [] (attributes.map bytes) := by
    rw [overwrite_zero, List.take_left, hstack, List.drop_left' htaken]
  have hkinds : ∀ a ∈ attributes, (a.kind, a.payload) = (a.type, a.payload) := by
    intro a ha
    exact congrArg (·, a.payload) (AttributeHeader.kind_of_free (hfree a ha))
  refine ⟨_, _, writeAll_of_room hfits hbegin hextent, ?_⟩
  simp only [hregion]
  constructor
  · rw [entries, walk_stack hfits]
    exact List.map_congr_left hkinds
  · intro tail
    rw [entries, walk_padded_stack_append hfits, List.map_append, List.map_congr_left hkinds,
      entries]

def unevenRow : List Attribute := [⟨1, [10, 0, 0, 1]⟩, ⟨7, [1]⟩, ⟨6, []⟩, ⟨3, [108, 111]⟩]

/-- The row is written over bytes that were there before, and one more attribute follows it. -/
theorem entries_writeAll_unevenRow :
    (∀ a ∈ unevenRow, AttributeHeader.IsFree a.type) ∧
    (∀ a ∈ unevenRow, a.payload.length ≤ 65531) ∧
    ∃ buffer' stop, writeAll unevenRow (List.replicate 40 0xFF) 8 = .ok (buffer', stop) ∧
      entries (padded ((buffer'.take stop).drop 8) ++ (⟨9, [5]⟩ : Attribute).bytes) =
        [(1, [10, 0, 0, 1]), (7, [1]), (6, []), (3, [108, 111]), (9, [5])] := by
  have hfree : ∀ a ∈ unevenRow, AttributeHeader.IsFree a.type := by decide
  have hlength : ∀ a ∈ unevenRow, a.payload.length ≤ 65531 := by decide
  obtain ⟨buffer', stop, hwrite, -, htail⟩ :=
    entries_writeAll hfree hlength (show 8 % 4 = 0 from rfl) (List.replicate 40 0xFF) (by decide)
  have hmore : entries (⟨9, [5]⟩ : Attribute).bytes = [(9, [5])] := by
    rw [entries, walk_of_some (next?_bytes (by decide)), walk_nil]
    rfl
  refine ⟨hfree, hlength, buffer', stop, hwrite, ?_⟩
  rw [htail, hmore]
  rfl

end RouteControl.Attribute
