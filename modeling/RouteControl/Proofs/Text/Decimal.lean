import RouteControl.Text.Decimal

/-!
# Reading decimal numbers

What texts denote a number (`Decimal.unsigned?_eq_some_iff`), and that a number is read back from
its own digits (`Decimal.digits?_toDigits`), of which the first is zero for zero alone.
-/

namespace RouteControl.Decimal

variable {limit n : Nat} {digits : List Char}

structure Denotes (digits : List Char) (n : Nat) : Prop where
  ne_nil : digits ≠ []
  isDigit : ∀ c ∈ digits, c.isDigit
  value : valueFrom 0 digits = n

theorem digits?_eq_some_iff : digits? digits = some n ↔ Denotes digits n := by
  unfold digits?
  split
  · rename_i h
    rw [List.all_eq_true] at h
    exact ⟨fun hn => ⟨h.1, h.2, Option.some.inj hn⟩, fun hn => congrArg some hn.value⟩
  · rename_i h
    rw [List.all_eq_true] at h
    exact ⟨nofun, fun hn => absurd ⟨hn.ne_nil, hn.isDigit⟩ h⟩

theorem within_eq_some_iff {number : Option Nat} :
    within limit number = some n ↔ number = some n ∧ n ≤ limit := by
  simp [within]

private theorem not_denotes_plus : ¬Denotes ('+' :: digits) n := fun h =>
  absurd (h.isDigit '+' List.mem_cons_self) (by decide)

theorem unsigned?_eq_some_iff {text : String} :
    unsigned? limit text = some n ↔ ∃ digits,
      (text.toList = digits ∨ text.toList = '+' :: digits) ∧ Denotes digits n ∧ n ≤ limit := by
  unfold unsigned?
  split
  · rename_i digits htext
    rw [within_eq_some_iff, digits?_eq_some_iff, htext]
    constructor
    · intro h
      exact ⟨digits, .inr rfl, h⟩
    · rintro ⟨_, rfl | hplus, h⟩
      · exact absurd h.1 not_denotes_plus
      · rwa [List.tail_eq_of_cons_eq hplus]
  · rename_i hplus
    rw [within_eq_some_iff, digits?_eq_some_iff]
    constructor
    · intro h
      exact ⟨_, .inl rfl, h⟩
    · rintro ⟨digits, rfl | htext, h⟩
      · exact h
      · exact absurd htext (hplus digits)

/-! ## The digits of a number -/

theorem denotes_toDigits (n : Nat) : Denotes (Nat.toDigits 10 n) n where
  ne_nil := Nat.toDigits_ne_nil
  isDigit := fun _ => Nat.isDigit_of_mem_toDigits (by decide) (by decide)
  value := Nat.ofDigitChars_ten_toDigits

theorem digits?_toDigits (n : Nat) : digits? (Nat.toDigits 10 n) = some n :=
  digits?_eq_some_iff.2 (denotes_toDigits n)

theorem eq_zero_of_head?_toDigits (h : (Nat.toDigits 10 n).head? = some '0') : n = 0 := by
  induction n using Nat.base_induction 10 (by decide) with
  | single m hm =>
      rw [Nat.toDigits_of_lt_base hm] at h
      simpa using h
  | digit m k hk hm ih =>
      obtain ⟨c, cs, hfront⟩ := List.exists_cons_of_ne_nil (Nat.toDigits_ne_nil (n := m) (b := 10))
      rw [← Nat.toDigits_append_toDigits (by decide) hm hk, hfront] at h
      rw [hfront] at ih
      exact absurd (ih h) (Nat.ne_of_gt hm)

end RouteControl.Decimal
