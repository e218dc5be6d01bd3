import RouteControl.Bytes.Word

/-!
# Fields of a written buffer

A field of a buffer is seen through the bytes from its offset on.  Cutting the buffer behind the
field, and writing elsewhere, leaves the field as it was; writing a word puts it there.
-/

namespace RouteControl.Bytes

theorem take_drop_take (bytes : Bytes) {offset width length : Nat} (h : offset + width ≤ length) :
    ((bytes.take length).drop offset).take width = (bytes.drop offset).take width := by
  rw [List.drop_take, List.take_take, Nat.min_eq_left (by omega)]

theorem take_drop_overwrite_of_le {buffer : Bytes} {start : Nat} (data : Bytes)
    (hstart : start ≤ buffer.length) {offset width : Nat} (h : offset + width ≤ start) :
    ((overwrite buffer start data).drop offset).take width = (buffer.drop offset).take width := by
  rw [← take_drop_take _ h, take_overwrite data hstart, take_drop_take _ h]

theorem take_drop_overwrite_of_ge {buffer : Bytes} {start : Nat} (data : Bytes)
    (hstart : start ≤ buffer.length) {offset : Nat} (width : Nat)
    (h : start + data.length ≤ offset) :
    ((overwrite buffer start data).drop offset).take width = (buffer.drop offset).take width := by
  obtain ⟨gap, rfl⟩ := Nat.exists_eq_add_of_le h
  rw [← List.drop_drop, drop_overwrite data hstart, List.drop_drop]

theorem getElem?_overwrite_of_outside {buffer : Bytes} {start place : Nat} (data : Bytes)
    (hstart : start ≤ buffer.length) (h : place < start ∨ start + data.length ≤ place) :
    (overwrite buffer start data)[place]? = buffer[place]? := by
  rcases h with hfront | hback
  · rw [← List.getElem?_take_of_lt hfront, take_overwrite data hstart,
      List.getElem?_take_of_lt hfront]
  · obtain ⟨gap, rfl⟩ := Nat.exists_eq_add_of_le hback
    rw [← List.getElem?_drop, drop_overwrite data hstart, List.getElem?_drop]

theorem uint16At_congr {first second : Bytes} {offset : Nat}
    (h : (first.drop offset).take 2 = (second.drop offset).take 2) :
    uint16At first offset = uint16At second offset := by
  rw [uint16At, h, uint16At]

theorem uint32At_congr {first second : Bytes} {offset : Nat}
    (h : (first.drop offset).take 4 = (second.drop offset).take 4) :
    uint32At first offset = uint32At second offset := by
  rw [uint32At, h, uint32At]

theorem uint16At_overwrite {buffer : Bytes} {start : Nat} (h : start ≤ buffer.length)
    (word : UInt16) : uint16At (overwrite buffer start (ofUInt16 word)) start = word := by
  have hread := uint16At_append (buffer.take start) word (buffer.drop (start + 2))
  rw [List.length_take, Nat.min_eq_left h] at hread
  rw [overwrite, List.append_assoc, length_ofUInt16, hread]

theorem uint32At_overwrite {buffer : Bytes} {start : Nat} (h : start ≤ buffer.length)
    (word : UInt32) : uint32At (overwrite buffer start (ofUInt32 word)) start = word := by
  have hread := uint32At_append (buffer.take start) word (buffer.drop (start + 4))
  rw [List.length_take, Nat.min_eq_left h] at hread
  rw [overwrite, List.append_assoc, length_ofUInt32, hread]

/-! ## Writing over a part -/

theorem overwrite_append_left {front data : Bytes} {start : Nat} (back : Bytes)
    (h : start + data.length ≤ front.length) :
    overwrite (front ++ back) start data = overwrite front start data ++ back := by
  have hstart : start ≤ front.length := Nat.le_trans (Nat.le_add_right _ _) h
  rw [overwrite, List.take_append_of_le_length hstart, List.drop_append_of_le_length h,
    ← List.append_assoc, overwrite]

theorem overwrite_append_right (front back : Bytes) (start : Nat) (data : Bytes) :
    overwrite (front ++ back) (front.length + start) data = front ++ overwrite back start data := by
  have htake : (front ++ back).take (front.length + start) = front ++ back.take start := by
    rw [List.take_append, List.take_of_length_le (by omega), Nat.add_sub_cancel_left]
  have hdrop : (front ++ back).drop (front.length + start + data.length) =
      back.drop (start + data.length) := by
    rw [Nat.add_assoc, ← List.drop_drop, List.drop_left]
  rw [overwrite, htake, hdrop, List.append_assoc, List.append_assoc, overwrite, List.append_assoc]

/-- Two parts that are written one behind the other are written as one. -/
theorem overwrite_overwrite {buffer : Bytes} {start : Nat} (first second : Bytes)
    (h : start ≤ buffer.length) :
    overwrite (overwrite buffer start first) (start + first.length) second =
      overwrite buffer start (first ++ second) := by
  have hfront : (buffer.take start ++ first).length = start + first.length := by
    rw [List.length_append, List.length_take, Nat.min_eq_left h]
  have htake : (overwrite buffer start first).take (start + first.length) =
      buffer.take start ++ first := by
    rw [overwrite, List.take_left' hfront]
  have hdrop : (overwrite buffer start first).drop (start + first.length + second.length) =
      buffer.drop (start + (first ++ second).length) := by
    rw [← List.drop_drop, drop_overwrite first h, List.drop_drop, List.length_append,
      Nat.add_assoc]
  rw [overwrite, htake, hdrop, List.append_assoc (buffer.take start) first second, overwrite]

/-! ## Writing over the front -/

theorem overwrite_zero (buffer held : Bytes) :
    overwrite buffer 0 held = held ++ buffer.drop held.length := by
  rw [overwrite, List.take_zero, List.nil_append, Nat.zero_add]

theorem overwrite_eq_overwrite_zero {buffer : Bytes} {start : Nat} (data : Bytes)
    (h : start ≤ buffer.length) :
    overwrite buffer start data = overwrite buffer 0 (buffer.take start ++ data) := by
  rw [overwrite_zero, List.length_append, List.length_take, Nat.min_eq_left h, overwrite]

theorem overwrite_zero_overwrite_zero {first second : Bytes} (buffer : Bytes)
    (h : first.length ≤ second.length) :
    overwrite (overwrite buffer 0 first) 0 second = overwrite buffer 0 second := by
  rw [overwrite_zero, overwrite_zero, overwrite_zero, List.drop_append, List.drop_eq_nil_of_le h,
    List.nil_append, List.drop_drop, Nat.add_sub_cancel' h]

end RouteControl.Bytes
