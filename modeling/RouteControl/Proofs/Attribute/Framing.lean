import Mathlib.Algebra.GroupWithZero.Nat
import RouteControl.Attribute
import RouteControl.Proofs.Bytes.Blocks

/-!
# Framing of attributes

An attribute whose length field can tell its length is read back from its bytes, whatever comes
behind it (`next?_bytes_append`).  So a row of such attributes, each on the next grid line, is
walked as this very row (`walk_stack`), and bytes put behind the padding of the last one leave it as
it is (`walk_padded_stack_append`).
-/

namespace RouteControl.Attribute

open Bytes

def Fits (a : Attribute) : Prop := AttributeHeader.size + a.payload.length ≤ maxLength

instance (a : Attribute) : Decidable a.Fits := by
  unfold Fits
  infer_instance

theorem fits_of_length_le {type : UInt16} {payload : Bytes}
    (h : payload.length ≤ maxLength - AttributeHeader.size) : (mk type payload).Fits := by
  simp only [Fits, AttributeHeader.size, maxLength] at h ⊢
  omega

theorem next?_bytes_append {a : Attribute} (h : a.Fits) (tail : Bytes) :
    next? (a.bytes ++ tail) =
      some (a, tail.drop (align a.bytes.length - a.bytes.length)) := by
  have hlength := a.length_bytes
  have hfields : a.bytes ++ tail =
      ofUInt16 a.header.length ++ (ofUInt16 a.header.type ++ (a.payload ++ tail)) := by
    simp only [bytes, AttributeHeader.bytes, List.append_assoc]
  have hfield : (a.bytes ++ tail).uint16At 0 = UInt16.ofNat a.bytes.length := by
    rw [hfields, hlength]
    exact uint16At_append [] a.header.length _
  have htype : (a.bytes ++ tail).uint16At 2 = a.type := by
    rw [hfields]
    exact uint16At_append (ofUInt16 a.header.length) a.header.type _
  have htold : (UInt16.ofNat a.bytes.length).toNat = a.bytes.length := by
    unfold Fits maxLength at h
    exact UInt16.toNat_ofNat_of_lt' (by rw [hlength, UInt16.size]; omega)
  have hle := le_align a.bytes.length
  have hpayload :
      ((a.bytes ++ tail).take a.bytes.length).drop AttributeHeader.size = a.payload := by
    rw [List.take_left, bytes]
    exact List.drop_left' a.header.length_bytes
  have hrest : (a.bytes ++ tail).drop (align a.bytes.length) =
      tail.drop (align a.bytes.length - a.bytes.length) := by
    rw [List.drop_append, List.drop_eq_nil_of_le hle, List.nil_append]
  have hwell : ¬(isExhausted (a.bytes ++ tail) ∨ a.bytes.length < AttributeHeader.size ∨
      (a.bytes ++ tail).length < a.bytes.length) := by
    simp only [isExhausted, List.length_append, hlength, decide_eq_true_eq]
    omega
  simp only [next?, hfield, htold]
  rw [if_neg hwell, htype, hpayload, hrest]

theorem next?_bytes {a : Attribute} (h : a.Fits) : next? a.bytes = some (a, []) := by
  have hread := next?_bytes_append h []
  rwa [List.append_nil, List.drop_nil] at hread

theorem next?_padded_append {a : Attribute} (h : a.Fits) (rest : Bytes) :
    next? (a.bytes.padded ++ rest) = some (a, rest) := by
  rw [padded, List.append_assoc, next?_bytes_append h]
  rw [List.drop_left' (length_zeros _)]

theorem walk_of_none {bytes : Bytes} (h : next? bytes = none) : walk bytes = [] := by
  rw [walk]
  split <;> simp_all

theorem walk_of_some {bytes rest : Bytes} {a : Attribute} (h : next? bytes = some (a, rest)) :
    walk bytes = a :: walk rest := by
  rw [walk]
  split <;> simp_all

theorem length_payload_next?_lt {bytes rest : Bytes} {a : Attribute}
    (h : next? bytes = some (a, rest)) : a.payload.length < bytes.length := by
  simp only [next?] at h
  split at h
  · cases h
  · rename_i hwell
    simp only [isExhausted, AttributeHeader.size, not_or, Nat.not_lt] at hwell
    simp only [Option.some.injEq, Prod.mk.injEq] at h
    rw [← h.1]
    simp only [List.length_drop, List.length_take, AttributeHeader.size]
    omega

/-- What an attribute holds is shorter than the bytes that it was found in. -/
theorem length_payload_lt_of_mem_walk {bytes : Bytes} {a : Attribute} (h : a ∈ walk bytes) :
    a.payload.length < bytes.length := by
  fun_induction walk bytes with
  | case1 => cases h
  | case2 bytes first rest hnext ih =>
      rcases List.mem_cons.1 h with rfl | h
      · exact length_payload_next?_lt hnext
      · exact Nat.lt_trans (ih h) (length_next?_lt hnext)

@[simp] theorem walk_nil : walk [] = [] :=
  walk_of_none rfl

theorem walk_stack {attributes : List Attribute} (h : ∀ a ∈ attributes, a.Fits) :
    walk (stack [] (attributes.map bytes)) = attributes := by
  cases attributes with
  | nil => exact walk_nil
  | cons a rest =>
      have hfirst : stack [] ((a :: rest).map bytes) = stack a.bytes (rest.map bytes) := by
        rw [List.map_cons, stack_cons, padded_of_aligned rfl, List.nil_append]
      rw [hfirst]
      induction rest generalizing a with
      | nil =>
          rw [List.map_nil, stack_nil, walk_of_some (next?_bytes (h a (by simp))), walk_nil]
      | cons b rest ih =>
          obtain ⟨ha, hrest⟩ := List.forall_mem_cons.1 h
          have hbehind : stack a.bytes ((b :: rest).map bytes) =
              a.bytes.padded ++ stack b.bytes (rest.map bytes) := by
            rw [List.map_cons, stack_cons]
            exact stack_append (by rw [length_padded, align_mod_four]) _ _
          have htail := ih b hrest (by
            rw [List.map_cons, stack_cons, padded_of_aligned rfl, List.nil_append])
          rw [hbehind, walk_of_some (next?_padded_append ha _), htail]

/-- Where the last attribute is padded as the others are, it ends where the next bytes begin. -/
theorem walk_padded_stack_append {attributes : List Attribute} (h : ∀ a ∈ attributes, a.Fits)
    (tail : Bytes) :
    walk ((stack [] (attributes.map bytes)).padded ++ tail) = attributes ++ walk tail := by
  rw [padded_stack, padded_of_aligned rfl, List.nil_append]
  induction attributes with
  | nil => rfl
  | cons a rest ih =>
      obtain ⟨ha, hrest⟩ := List.forall_mem_cons.1 h
      rw [List.map_cons, List.flatMap_cons, List.append_assoc,
        walk_of_some (next?_padded_append ha _), ih hrest, List.cons_append]

/-! ## Regular attributes -/

/-- The payload is made of whole words, four at most.  So are all payloads in requests. -/
def Regular (a : Attribute) : Prop := a.payload.length % 4 = 0 ∧ a.payload.length ≤ 16

theorem Regular.fits {a : Attribute} (h : a.Regular) : a.Fits :=
  fits_of_length_le (Nat.le_trans h.2 (by decide))

/-- Between regular attributes there are no gaps. -/
theorem length_stack_of_regular {attributes : List Attribute} (h : ∀ a ∈ attributes, a.Regular) :
    (stack [] (attributes.map bytes)).length = (attributes.map fun a => a.bytes.length).sum := by
  have haligned : ∀ block ∈ attributes.map bytes, block.length % 4 = 0 := by
    intro block hblock
    obtain ⟨a, ha, rfl⟩ := List.mem_map.1 hblock
    have hpayload := (h a ha).1
    rw [length_bytes, AttributeHeader.size]
    omega
  rw [stack_of_aligned rfl haligned, List.nil_append, List.length_flatten, List.map_map]
  rfl

theorem sum_mod_four_of_regular {attributes : List Attribute} (h : ∀ a ∈ attributes, a.Regular) :
    (attributes.map fun a => a.bytes.length).sum % 4 = 0 := by
  induction attributes with
  | nil => rfl
  | cons a rest ih =>
      obtain ⟨ha, hrest⟩ := List.forall_mem_cons.1 h
      have hpayload := ha.1
      have hsum := ih hrest
      rw [List.map_cons, List.sum_cons, length_bytes, AttributeHeader.size]
      omega

theorem sum_le_of_regular {attributes : List Attribute} (h : ∀ a ∈ attributes, a.Regular) :
    (attributes.map fun a => a.bytes.length).sum ≤ 20 * attributes.length := by
  induction attributes with
  | nil => exact Nat.zero_le _
  | cons a rest ih =>
      obtain ⟨ha, hrest⟩ := List.forall_mem_cons.1 h
      have hpayload := ha.2
      have hsum := ih hrest
      rw [List.map_cons, List.sum_cons, length_bytes, AttributeHeader.size, List.length_cons]
      omega

end RouteControl.Attribute
