import RouteControl.Attribute

/-!
# Kinds and flags

The two upper bits of a type are flags.  A kind that leaves them free is read back from its type,
whether the flag of a nest is set beside it or not (`kind_of_free`, `kind_of_nested`), and this flag
is read back just where it was set (`isNested_of_free`, `isNested_of_nested`).
-/

namespace RouteControl.AttributeHeader

def IsFree (type : UInt16) : Prop := type < 0x4000

instance (type : UInt16) : Decidable (IsFree type) := by
  unfold IsFree
  infer_instance

variable {type length : UInt16}

theorem IsFree.and_kindMask (h : IsFree type) : type &&& kindMask = type := by
  have hlt : type.toNat < 2 ^ 14 := UInt16.lt_iff_toNat_lt.1 h
  apply UInt16.toNat_inj.1
  rw [UInt16.toNat_and]
  exact (Nat.and_two_pow_sub_one_eq_mod type.toNat 14).trans (Nat.mod_eq_of_lt hlt)

theorem IsFree.and_nestedFlag (h : IsFree type) : type &&& nestedFlag = 0 := by
  rw [← h.and_kindMask, UInt16.and_assoc]
  exact UInt16.and_zero

theorem or_nestedFlag_and (type mask : UInt16) :
    (type ||| nestedFlag) &&& mask = type &&& mask ||| nestedFlag &&& mask := by
  apply UInt16.toBitVec_inj.1
  ext i
  simp [Bool.and_or_distrib_right]

theorem kind_of_free (h : IsFree type) : kind ⟨length, type⟩ = type :=
  h.and_kindMask

theorem kind_of_nested (h : IsFree type) : kind ⟨length, type ||| nestedFlag⟩ = type := by
  have hmask : nestedFlag &&& kindMask = 0 := by decide
  rw [kind, or_nestedFlag_and, h.and_kindMask, hmask, UInt16.or_zero]

theorem isNested_of_free (h : IsFree type) : isNested ⟨length, type⟩ = false := by
  simp [isNested, h.and_nestedFlag]

theorem isNested_of_nested (h : IsFree type) :
    isNested ⟨length, type ||| nestedFlag⟩ = true := by
  rw [isNested, or_nestedFlag_and, h.and_nestedFlag, UInt16.zero_or]
  decide

end RouteControl.AttributeHeader
