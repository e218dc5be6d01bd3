import RouteControl.Bytes.Text

/-!
# Texts in bytes

Bytes hold the text that is laid out as what stands in front of the first zero
(`text?_eq_some_iff`).  The zero byte occurs among the bytes of a text just where the text has the
zero character (`zero_mem_ofText_iff`), so that a text without it is read back from its bytes and
the zero that ends them (`text?_ofTerminatedText`).
-/

namespace RouteControl.Bytes

private theorem fromUTF8?_eq_some_iff {bytes : ByteArray} {text : String} :
    String.fromUTF8? bytes = some text ↔ bytes = text.toUTF8 := by
  unfold String.fromUTF8?
  constructor
  · intro htext
    split at htext
    · cases htext
      rfl
    · cases htext
  · rintro rfl
    exact dif_pos text.isValidUTF8

/-- Bytes hold the text that is laid out as what stands in front of the first zero. -/
theorem text?_eq_some_iff {bytes : Bytes} {text : String} :
    text? bytes = some text ↔ untilZero bytes = ofText text := by
  rw [text?, fromUTF8?_eq_some_iff, ofText]
  constructor
  · intro hsame
    rw [← hsame]
  · intro hsame
    rw [hsame]

/-! ## Texts without a zero -/

theorem ofText_eq_flatMap (text : String) :
    ofText text = text.toList.flatMap String.utf8EncodeChar := by
  have hbytes : text.toUTF8 = (text.toList.flatMap String.utf8EncodeChar).toByteArray :=
    String.utf8Encode_toList.symm
  rw [ofText, hbytes, List.data_toByteArray]

private theorem zero_ne_ofNat_mod_add (low : Nat) {modulus high : Nat} (hmodulus : 0 < modulus)
    (hhigh : 0 < high) (hroom : modulus + high ≤ 256) :
    0 ≠ UInt8.ofNat (low % modulus + high) := by
  intro hzero
  have hlow := Nat.mod_lt low hmodulus
  have hnumber := congrArg UInt8.toNat hzero
  rw [UInt8.toNat_ofNat_of_lt' (by rw [UInt8.size]; omega), UInt8.toNat_zero] at hnumber
  omega

/-- A character of one byte is its number; in all bytes of a longer one the upper bit is set. -/
theorem zero_mem_utf8EncodeChar_iff (c : Char) :
    0 ∈ String.utf8EncodeChar c ↔ c = Char.ofNat 0 := by
  constructor
  · intro hzero
    simp only [String.utf8EncodeChar] at hzero
    split at hzero
    case isTrue hshort =>
      have hlt : c.val.toNat < UInt8.size := Nat.lt_of_le_of_lt hshort (by decide)
      have hnumber := congrArg UInt8.toNat (List.mem_singleton.1 hzero)
      rw [UInt8.toNat_ofNat_of_lt' hlt, UInt8.toNat_zero] at hnumber
      exact Char.ext (UInt32.toNat_inj.1 hnumber.symm)
    case isFalse =>
      split at hzero
      · simp (disch := decide) only [List.mem_cons, List.not_mem_nil, zero_ne_ofNat_mod_add,
          or_self] at hzero
      · split at hzero
        · simp (disch := decide) only [List.mem_cons, List.not_mem_nil, zero_ne_ofNat_mod_add,
            or_self] at hzero
        · simp (disch := decide) only [List.mem_cons, List.not_mem_nil, zero_ne_ofNat_mod_add,
            or_self] at hzero
  · rintro rfl
    decide

theorem zero_mem_ofText_iff (text : String) : 0 ∈ ofText text ↔ Char.ofNat 0 ∈ text.toList := by
  simp only [ofText_eq_flatMap, List.mem_flatMap, zero_mem_utf8EncodeChar_iff, exists_eq_right]

theorem untilZero_ofTerminatedText {text : String} (h : Char.ofNat 0 ∉ text.toList) :
    untilZero (ofTerminatedText text) = ofText text := by
  have hzero : ∀ b ∈ ofText text, decide (b ≠ 0) := by
    intro b hb
    refine decide_eq_true fun hsame => h ((zero_mem_ofText_iff text).1 ?_)
    rwa [← hsame]
  rw [untilZero, ofTerminatedText, List.takeWhile_append_of_pos hzero]
  exact List.append_nil _

theorem text?_ofTerminatedText {text : String} (h : Char.ofNat 0 ∉ text.toList) :
    text? (ofTerminatedText text) = some text :=
  text?_eq_some_iff.2 (untilZero_ofTerminatedText h)

end RouteControl.Bytes
