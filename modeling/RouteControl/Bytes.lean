/-!
# Bytes

Byte strings, the four-byte grid on which netlink lays out messages and attributes, and writing
into a buffer of fixed size.

`align` is the least grid line at or after a position (`le_align`, `align_mod_four`);
`overwrite` keeps the size of a buffer (`length_overwrite`) and changes nothing outside the
written range (`take_overwrite`, `drop_overwrite`).
-/

namespace RouteControl

abbrev Bytes := List UInt8

namespace Bytes

def align (n : Nat) : Nat := (n + 3) / 4 * 4

theorem le_align (n : Nat) : n ≤ align n := by
  unfold align
  omega

theorem align_mod_four (n : Nat) : align n % 4 = 0 := by
  unfold align
  omega

theorem align_eq_self {n : Nat} (h : n % 4 = 0) : align n = n := by
  unfold align
  omega

theorem align_add_of_mod {m : Nat} (h : m % 4 = 0) (n : Nat) : align (m + n) = m + align n := by
  unfold align
  omega

def zeros (n : Nat) : Bytes := List.replicate n 0

@[simp] theorem length_zeros (n : Nat) : (zeros n).length = n := by
  simp [zeros]

def padded (bytes : Bytes) : Bytes := bytes ++ zeros (align bytes.length - bytes.length)

theorem length_padded (bytes : Bytes) : (padded bytes).length = align bytes.length := by
  have := le_align bytes.length
  simp [padded]
  omega

def overwrite (buffer : Bytes) (start : Nat) (data : Bytes) : Bytes :=
  buffer.take start ++ data ++ buffer.drop (start + data.length)

theorem length_overwrite {buffer : Bytes} {start : Nat} {data : Bytes}
    (h : start + data.length ≤ buffer.length) :
    (overwrite buffer start data).length = buffer.length := by
  simp [overwrite]
  omega

theorem take_overwrite {buffer : Bytes} {start : Nat} (data : Bytes) (h : start ≤ buffer.length) :
    (overwrite buffer start data).take start = buffer.take start := by
  simp [overwrite, h]

theorem drop_overwrite {buffer : Bytes} {start : Nat} (data : Bytes) (h : start ≤ buffer.length) :
    (overwrite buffer start data).drop (start + data.length) =
      buffer.drop (start + data.length) := by
  have hlen : (buffer.take start ++ data).length = start + data.length := by
    simp [h]
  rw [overwrite, List.drop_append, hlen]
  simp [h]

end Bytes

end RouteControl
