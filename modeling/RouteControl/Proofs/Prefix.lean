import RouteControl.Prefix

/-!
# Containment in prefixes

Words agree in their first bits just when these are the same one by one (`agree_iff_getMsbD`), which
is to say that the words are the same under the mask of so many bits (`agree_iff_mask`).  So an
address lies in a prefix just when it is of the same family and has the same leading bits
(`Prefix.contains_iff`).  At one length this is an equivalence of addresses, and what lies in a
longer prefix of an address lies in each shorter one (`Prefix.contains_of_le`).
-/

namespace RouteControl

/-! ## Words -/

section Words

variable {width n : Nat} {a b : BitVec width}

private theorem agree_iff_getMsbD : agree n a b ↔ ∀ i < n, a.getMsbD i = b.getMsbD i := by
  rw [agree, beq_iff_eq]
  constructor
  · intro h i hi
    by_cases hwidth : i < width
    · have hplace : i + (width - n) < width := by omega
      have hkept : ¬i + (width - n) < width - n := by omega
      have hbit := congrArg (BitVec.getMsbD · (i + (width - n))) h
      simpa [BitVec.getMsbD_ushiftRight, hplace, hkept] using hbit
    · have hout : width ≤ i := Nat.le_of_not_lt hwidth
      rw [BitVec.getMsbD_of_ge a i hout, BitVec.getMsbD_of_ge b i hout]
  · intro h
    apply BitVec.eq_of_getMsbD_eq
    intro j hj
    rw [BitVec.getMsbD_ushiftRight, BitVec.getMsbD_ushiftRight]
    by_cases hnew : j < width - n
    · simp [hnew]
    · rw [h (j - (width - n)) (by omega)]

def mask (width n : Nat) : BitVec width := BitVec.allOnes width <<< (width - n)

private theorem getMsbD_and_mask (a : BitVec width) (i : Nat) :
    (a &&& mask width n).getMsbD i = (a.getMsbD i && decide (i < n)) := by
  rw [mask, BitVec.getMsbD_and, BitVec.getMsbD_shiftLeft, BitVec.getMsbD_allOnes]
  by_cases hwidth : i < width
  · have hplace : i + (width - n) < width ↔ i < n := by omega
    simp only [hplace]
  · rw [BitVec.getMsbD_of_ge a i (Nat.le_of_not_lt hwidth), Bool.false_and, Bool.false_and]

theorem agree_iff_mask : agree n a b ↔ a &&& mask width n = b &&& mask width n := by
  rw [agree_iff_getMsbD]
  constructor
  · intro h
    apply BitVec.eq_of_getMsbD_eq
    intro i _
    rw [getMsbD_and_mask, getMsbD_and_mask]
    by_cases hi : i < n
    · rw [h i hi]
    · simp [hi]
  · intro h i hi
    have hbit := congrArg (BitVec.getMsbD · i) h
    simpa only [getMsbD_and_mask, hi, decide_true, Bool.and_true] using hbit

/-- A length beyond the width asks for all bits. -/
theorem mask_min (width n : Nat) : mask width (min n width) = mask width n := by
  have hshift : width - min n width = width - n := by omega
  rw [mask, hshift, mask]

theorem agree_iff_take : agree n a b ↔
    ((List.range width).map a.getMsbD).take n = ((List.range width).map b.getMsbD).take n := by
  rw [agree_iff_getMsbD, ← List.map_take, ← List.map_take, List.take_range, List.map_inj_left]
  constructor
  · intro h i hi
    exact h i (Nat.lt_of_lt_of_le (List.mem_range.1 hi) (Nat.min_le_left _ _))
  · intro h i hi
    by_cases hwidth : i < width
    · exact h i (List.mem_range.2 (Nat.lt_min.2 ⟨hi, hwidth⟩))
    · have hout : width ≤ i := Nat.le_of_not_lt hwidth
      rw [BitVec.getMsbD_of_ge a i hout, BitVec.getMsbD_of_ge b i hout]

end Words

/-- The bits of an address, the most significant first. -/
def Address.bits : Address → List Bool
  | .v4 bits => (List.range 32).map bits.getMsbD
  | .v6 bits => (List.range 128).map bits.getMsbD

theorem Address.length_bits (a : Address) : a.bits.length = a.width.toNat := by
  cases a <;> simp [bits, width]

namespace Prefix

/-! ## Prefixes -/

variable {p : Prefix} {net a b : Address} {length shorter : UInt8}

private theorem inet_ne_inet6 : Family.inet ≠ Family.inet6 := by decide

theorem contains_iff : p.contains a ↔
    p.address.family = a.family ∧
      p.address.bits.take p.length.toNat = a.bits.take p.length.toNat := by
  obtain ⟨net, length⟩ := p
  cases net with
  | v4 net =>
      cases a with
      | v4 bits => exact agree_iff_take.trans (and_iff_right rfl).symm
      | v6 bits => exact iff_of_false Bool.false_ne_true fun h => inet_ne_inet6 h.1
  | v6 net =>
      cases a with
      | v4 bits => exact iff_of_false Bool.false_ne_true fun h => inet_ne_inet6 h.1.symm
      | v6 bits => exact agree_iff_take.trans (and_iff_right rfl).symm

theorem family_eq_of_contains (h : p.contains a) : p.address.family = a.family :=
  (contains_iff.1 h).1

theorem contains_refl (net : Address) (length : UInt8) : (Prefix.mk net length).contains net :=
  contains_iff.2 ⟨rfl, rfl⟩

theorem contains_symm (h : (Prefix.mk net length).contains a) :
    (Prefix.mk a length).contains net := by
  obtain ⟨hfamily, hbits⟩ := contains_iff.1 h
  exact contains_iff.2 ⟨hfamily.symm, hbits.symm⟩

theorem contains_trans (hab : (Prefix.mk net length).contains a)
    (hbc : (Prefix.mk a length).contains b) : (Prefix.mk net length).contains b := by
  obtain ⟨hfamily, hbits⟩ := contains_iff.1 hab
  obtain ⟨hfamily', hbits'⟩ := contains_iff.1 hbc
  exact contains_iff.2 ⟨hfamily.trans hfamily', hbits.trans hbits'⟩

theorem contains_of_le (hle : shorter ≤ length) (h : (Prefix.mk net length).contains a) :
    (Prefix.mk net shorter).contains a := by
  obtain ⟨hfamily, hbits⟩ := contains_iff.1 h
  refine contains_iff.2 ⟨hfamily, ?_⟩
  have hmin : min shorter.toNat length.toNat = shorter.toNat :=
    Nat.min_eq_left (UInt8.le_iff_toNat_le.1 hle)
  have hfront := congrArg (List.take shorter.toNat) hbits
  rwa [List.take_take, List.take_take, hmin] at hfront

/-- An address lies in a prefix just when both are of one family and have the same leading bits, as
many as the length tells, and all where it tells more than there are; or when both are the same
under the mask of so many bits.  At one length this is an equivalence of addresses, and what lies in
the prefix of one length lies in that of each shorter one. -/
theorem contains_iff_leading_bits (length : UInt8) :
    let within (net a : Address) := (Prefix.mk net length).contains a = true
    let leading (a : Address) := a.bits.take (min length.toNat a.width.toNat)
    (∀ net a, within net a ↔ net.family = a.family ∧ leading net = leading a) ∧
    (∀ net a : BitVec 32, within (.v4 net) (.v4 a) ↔
      net &&& mask 32 (min length.toNat 32) = a &&& mask 32 (min length.toNat 32)) ∧
    (∀ net a : BitVec 128, within (.v6 net) (.v6 a) ↔
      net &&& mask 128 (min length.toNat 128) = a &&& mask 128 (min length.toNat 128)) ∧
    Equivalence within ∧
    ∀ shorter ≤ length, ∀ net a, within net a → (Prefix.mk net shorter).contains a := by
  intro within leading
  have hleading : ∀ a : Address, leading a = a.bits.take length.toNat := by
    intro a
    simp only [leading]
    rw [← a.length_bits, ← List.take_eq_take_min]
  refine ⟨?_, ?_, ?_, ?_, ?_⟩
  · intro net a
    rw [hleading, hleading]
    exact contains_iff
  · intro net a
    rw [mask_min]
    exact agree_iff_mask
  · intro net a
    rw [mask_min]
    exact agree_iff_mask
  · exact ⟨fun net => contains_refl net length, contains_symm, contains_trans⟩
  · intro shorter hle net a
    exact contains_of_le hle

theorem contains_iff_leading_bits_nested :
    (8 : UInt8) ≤ 24 ∧ (Prefix.mk (.v4 0x0a010200) 24).contains (.v4 0x0a01024d) ∧
      (Prefix.mk (.v4 0x0a010200) 8).contains (.v4 0x0a01024d) := by
  have hlong : (Prefix.mk (.v4 0x0a010200) 24).contains (.v4 0x0a01024d) := by decide
  obtain ⟨-, -, -, -, hshort⟩ := contains_iff_leading_bits 24
  exact ⟨by decide, hlong, hshort 8 (by decide) _ _ hlong⟩

end Prefix

end RouteControl
