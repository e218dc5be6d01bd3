import RouteControl.Bytes

/-!
# Words

Fixed-width numbers as bytes, in both byte orders.  The kernel's own headers are little-endian on
this host; addresses travel in network order, which is big-endian.

A number of the width reads back from its bytes (`ofLittleEndian_littleEndian`,
`ofBigEndian_bigEndian`), and bytes are determined by their number
(`littleEndian_ofLittleEndian`).
-/

namespace RouteControl.Bytes

/-- The low `width` bytes of a number, least significant first. -/
def littleEndian : Nat → Nat → Bytes
  | 0, _ => []
  | width + 1, n => UInt8.ofNat n :: littleEndian width (n / 256)

def ofLittleEndian : Bytes → Nat
  | [] => 0
  | b :: rest => b.toNat + 256 * ofLittleEndian rest

@[simp] theorem length_littleEndian (width n : Nat) : (littleEndian width n).length = width := by
  induction width generalizing n with
  | zero => rfl
  | succ width ih => simp [littleEndian, ih]

theorem ofLittleEndian_littleEndian (width n : Nat) :
    ofLittleEndian (littleEndian width n) = n % Nat.pow 256 width := by
  induction width generalizing n with
  | zero => simp [littleEndian, ofLittleEndian, Nat.mod_one]
  | succ width ih =>
    have hpow : Nat.pow 256 (width + 1) = 256 * Nat.pow 256 width := Nat.mul_comm ..
    rw [littleEndian, ofLittleEndian, ih, hpow, Nat.mod_mul]
    simp

theorem littleEndian_ofLittleEndian (bytes : Bytes) :
    littleEndian bytes.length (ofLittleEndian bytes) = bytes := by
  induction bytes with
  | nil => rfl
  | cons b rest ih =>
    have hb := b.toNat_lt
    have hdiv : (b.toNat + 256 * ofLittleEndian rest) / 256 = ofLittleEndian rest := by omega
    have hmod : UInt8.ofNat (b.toNat + 256 * ofLittleEndian rest) = b := by
      apply UInt8.toNat_inj.1
      rw [UInt8.toNat_ofNat']
      omega
    simp only [ofLittleEndian, List.length_cons, littleEndian, hdiv, hmod, ih]

def bigEndian (width n : Nat) : Bytes := (littleEndian width n).reverse

def ofBigEndian (bytes : Bytes) : Nat := ofLittleEndian bytes.reverse

@[simp] theorem length_bigEndian (width n : Nat) : (bigEndian width n).length = width := by
  simp [bigEndian]

theorem ofBigEndian_bigEndian (width n : Nat) :
    ofBigEndian (bigEndian width n) = n % Nat.pow 256 width := by
  simp [ofBigEndian, bigEndian, ofLittleEndian_littleEndian]

def ofUInt16 (word : UInt16) : Bytes := littleEndian 2 word.toNat

def ofUInt32 (word : UInt32) : Bytes := littleEndian 4 word.toNat

@[simp] theorem length_ofUInt16 (word : UInt16) : (ofUInt16 word).length = 2 :=
  length_littleEndian ..

@[simp] theorem length_ofUInt32 (word : UInt32) : (ofUInt32 word).length = 4 :=
  length_littleEndian ..

def byteAt (bytes : Bytes) (offset : Nat) : UInt8 := bytes.getD offset 0

def uint16At (bytes : Bytes) (offset : Nat) : UInt16 :=
  UInt16.ofNat (ofLittleEndian ((bytes.drop offset).take 2))

def uint32At (bytes : Bytes) (offset : Nat) : UInt32 :=
  UInt32.ofNat (ofLittleEndian ((bytes.drop offset).take 4))

def uint8? (bytes : Bytes) : Option UInt8 :=
  if bytes.length = 1 then some (byteAt bytes 0) else none

/-- The word that makes up a four-byte value in this host's order. -/
def uint32? (bytes : Bytes) : Option UInt32 :=
  if bytes.length = 4 then some (uint32At bytes 0) else none

def networkUInt32? (bytes : Bytes) : Option UInt32 :=
  if bytes.length = 4 then some (UInt32.ofNat (ofBigEndian bytes)) else none

theorem uint16At_append (front : Bytes) (word : UInt16) (rest : Bytes) :
    uint16At (front ++ (ofUInt16 word ++ rest)) front.length = word := by
  have h := word.toNat_lt
  have htake : (ofUInt16 word ++ rest).take 2 = ofUInt16 word := by
    rw [List.take_append_of_le_length (by simp), List.take_of_length_le (by simp)]
  rw [uint16At, List.drop_left, htake, ofUInt16, ofLittleEndian_littleEndian,
    Nat.mod_eq_of_lt (by simpa using h), UInt16.ofNat_toNat]

theorem uint32At_append (front : Bytes) (word : UInt32) (rest : Bytes) :
    uint32At (front ++ (ofUInt32 word ++ rest)) front.length = word := by
  have h := word.toNat_lt
  have htake : (ofUInt32 word ++ rest).take 4 = ofUInt32 word := by
    rw [List.take_append_of_le_length (by simp), List.take_of_length_le (by simp)]
  rw [uint32At, List.drop_left, htake, ofUInt32, ofLittleEndian_littleEndian,
    Nat.mod_eq_of_lt (by simpa using h), UInt32.ofNat_toNat]

theorem uint32?_ofUInt32 (word : UInt32) : uint32? (ofUInt32 word) = some word := by
  have h := uint32At_append [] word []
  simp only [List.nil_append, List.append_nil, List.length_nil] at h
  simp [uint32?, h]

end RouteControl.Bytes
