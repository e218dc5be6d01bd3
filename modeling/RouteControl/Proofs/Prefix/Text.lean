import Mathlib.Data.List.TakeDrop
import Mathlib.Data.List.TakeWhile
import RouteControl.CommandLine.Command
import RouteControl.Proofs.Address.Text
import RouteControl.Record.Route

/-!
# The text of prefixes

A text denotes a prefix just when it spells it (`parse_eq_ok_iff`): an address alone, at full width,
or an address, a slash and a length.  The first slash counts, as no address has one in its text; so
what is behind it is all of the length.  The network of a route is read back from its text
(`texts_read_exactly`).
-/

namespace RouteControl.Prefix

/-- The text spells the prefix.  A length is one or more digits, with or without a plus in front,
and the address has as many bits. -/
inductive Spells : String → Prefix → Prop where
  | address {text : String} {a : Address} (hslash : '/' ∉ text.toList)
      (ha : Address.parse? text = some a) : Spells text ⟨a, a.width⟩
  | addressAndLength {front behind : String} {a : Address} {length : UInt8} {digits : List Char}
      (hslash : '/' ∉ front.toList) (ha : Address.parse? front = some a)
      (hbehind : behind.toList = digits ∨ behind.toList = '+' :: digits)
      (hdigits : Decimal.Denotes digits length.toNat) (hlength : length ≤ a.width) :
      Spells (front ++ "/" ++ behind) ⟨a, length⟩

variable {text front behind : String} {a : Address} {length : UInt8} {p : Prefix}

/-! ## The parts of a text -/

private theorem ne_slash_of_not_mem {chars : List Char} (h : '/' ∉ chars) :
    ∀ c ∈ chars, decide (c ≠ '/') := by
  intro c hc
  rw [decide_eq_true_eq]
  rintro rfl
  exact h hc

private theorem splitSlash_of_not_mem {chars : List Char} (h : '/' ∉ chars) :
    splitSlash chars = (chars, none) := by
  have hspan : chars.span (· ≠ '/') = (chars, []) := by
    rw [List.span_eq_takeWhile_dropWhile, List.takeWhile_eq_self_iff.2 (ne_slash_of_not_mem h),
      List.dropWhile_eq_nil_iff.2 (ne_slash_of_not_mem h)]
  rw [splitSlash, hspan]

private theorem splitSlash_append {chars : List Char} (h : '/' ∉ chars) (rest : List Char) :
    splitSlash (chars ++ '/' :: rest) = (chars, some rest) := by
  have hspan : (chars ++ '/' :: rest).span (· ≠ '/') = (chars, '/' :: rest) := by
    rw [List.span_eq_takeWhile_dropWhile,
      List.takeWhile_append_of_pos (ne_slash_of_not_mem h),
      List.dropWhile_append_of_pos (ne_slash_of_not_mem h)]
    simp
  rw [splitSlash, hspan]

theorem parseAddress_eq_ok_iff : parseAddress text = .ok a ↔ Address.parse? text = some a := by
  unfold parseAddress
  cases Address.parse? text <;> simp

theorem parseLength_eq_ok_iff : parseLength a text = .ok length ↔
    Decimal.unsigned? 255 text = some length.toNat ∧ length ≤ a.width := by
  unfold parseLength
  cases hnumber : Decimal.unsigned? 255 text with
  | none => simp
  | some n =>
      obtain ⟨_, -, -, hsmall⟩ := Decimal.unsigned?_eq_some_iff.1 hnumber
      have hn : (UInt8.ofNat n).toNat = n := UInt8.toNat_ofNat_of_lt' (Nat.lt_succ_of_le hsmall)
      simp only [Option.some.injEq]
      split
      · rename_i hlong
        refine ⟨nofun, fun ⟨hsame, hle⟩ => ?_⟩
        rw [hsame, UInt8.ofNat_toNat] at hlong
        exact absurd hlong (UInt8.not_lt.2 hle)
      · rename_i hshort
        rw [Except.ok.injEq]
        constructor
        · rintro rfl
          exact ⟨hn.symm, UInt8.not_lt.1 hshort⟩
        · rintro ⟨rfl, -⟩
          exact UInt8.ofNat_toNat

private theorem parse_of_not_mem (h : '/' ∉ text.toList) :
    parse text = (parseAddress text).map fun a => ⟨a, a.width⟩ := by
  rw [parse, splitSlash_of_not_mem h]
  simp only [String.ofList_toList]
  cases parseAddress text <;> rfl

private theorem parse_append (h : '/' ∉ front.toList) (behind : String) :
    parse (front ++ "/" ++ behind) =
      (parseAddress front).bind fun a => (parseLength a behind).map fun n => ⟨a, n⟩ := by
  have hsplit : splitSlash (front ++ "/" ++ behind).toList =
      (front.toList, some behind.toList) := by
    rw [String.toList_append, String.toList_append, List.append_assoc]
    exact splitSlash_append h behind.toList
  rw [parse, hsplit]
  simp only [String.ofList_toList]
  cases parseAddress front with
  | error _ => rfl
  | ok a =>
      simp only [Except.bind, bind]
      cases parseLength a behind <;> rfl

/-! ## Whole texts -/

theorem parse_of_spells (h : Spells text p) : parse text = .ok p := by
  cases h with
  | address hslash ha =>
      rw [parse_of_not_mem hslash, parseAddress_eq_ok_iff.2 ha]
      rfl
  | @addressAndLength _ behind a length digits hslash ha hbehind hdigits hlength =>
      have hread : parseLength a behind = .ok length := by
        rw [parseLength_eq_ok_iff, Decimal.unsigned?_eq_some_iff]
        exact ⟨⟨digits, hbehind, hdigits, Nat.le_of_lt_succ length.toNat_lt⟩, hlength⟩
      rw [parse_append hslash, parseAddress_eq_ok_iff.2 ha, Except.bind, hread]
      rfl

theorem spells_of_parse (h : parse text = .ok p) : Spells text p := by
  by_cases hslash : '/' ∈ text.toList
  · obtain ⟨before, rest, hchars, hbefore⟩ := List.eq_append_cons_of_mem hslash
    obtain ⟨front, rfl⟩ : ∃ front : String, before = front.toList :=
      ⟨.ofList before, String.toList_ofList.symm⟩
    obtain ⟨behind, rfl⟩ : ∃ behind : String, rest = behind.toList :=
      ⟨.ofList rest, String.toList_ofList.symm⟩
    obtain rfl : text = front ++ "/" ++ behind := by
      rw [← String.toList_inj, hchars, String.toList_append, String.toList_append]
      simp
    rw [parse_append hbefore] at h
    cases ha : parseAddress front with
    | error _ =>
        rw [ha] at h
        cases h
    | ok a =>
      rw [ha, Except.bind] at h
      cases hlength : parseLength a behind with
      | error _ =>
          rw [hlength] at h
          cases h
      | ok length =>
          rw [hlength] at h
          cases h
          obtain ⟨hnumber, hle⟩ := parseLength_eq_ok_iff.1 hlength
          obtain ⟨digits, hbehind, hdigits, -⟩ := Decimal.unsigned?_eq_some_iff.1 hnumber
          exact .addressAndLength hbefore (parseAddress_eq_ok_iff.1 ha) hbehind hdigits hle
  · rw [parse_of_not_mem hslash] at h
    cases ha : parseAddress text with
    | error _ =>
        rw [ha] at h
        cases h
    | ok a =>
        rw [ha] at h
        cases h
        exact .address hslash (parseAddress_eq_ok_iff.1 ha)

theorem parse_eq_ok_iff : parse text = .ok p ↔ Spells text p :=
  ⟨spells_of_parse, parse_of_spells⟩

theorem length_le_of_spells (h : Spells text p) : p.length ≤ p.address.width := by
  cases h with
  | address => exact UInt8.le_refl _
  | addressAndLength _ _ _ _ hlength => exact hlength

theorem spells_text (h : p.length ≤ p.address.width) : Spells p.text p := by
  have htext : p.text = p.address.text ++ "/" ++ toString p.length.toNat := rfl
  have hdigits : (toString p.length.toNat).toList = Nat.toDigits 10 p.length.toNat := by
    rw [Nat.toString_eq_repr, Nat.toList_repr]
  rw [htext]
  exact .addressAndLength (Address.slash_not_mem_text _) (Address.parse?_text _) (.inl hdigits)
    (Decimal.denotes_toDigits _) h

theorem destinationText_of_pos {r : Route} (h : 1 ≤ r.prefixLength) :
    r.destinationText = r.network.text := by
  have hdefault : ¬r.prefixLength = 0 := by
    intro hzero
    rw [hzero] at h
    exact absurd h (by decide)
  simp [Route.destinationText, Route.isDefault, hdefault]

theorem network?_eq_some_iff : CommandLine.network? text = some p ↔ parse text = .ok p := by
  unfold CommandLine.network?
  cases parse text <;> simp [Except.toOption]

/-- The texts that denote a prefix, to a program as on the command line, are those that spell it.
The text of every route that does not lead everywhere is one, and denotes its network.  Addresses
are read back from their own texts, and no text with a slash denotes one. -/
theorem texts_read_exactly :
    (∀ text p, parse text = .ok p ↔ Spells text p) ∧
    (∀ text p, CommandLine.network? text = some p ↔ Spells text p) ∧
    (∀ r : Route, 1 ≤ r.prefixLength → r.prefixLength ≤ r.destination.width →
      parse r.destinationText = .ok ⟨r.destination, r.prefixLength⟩) ∧
    (∀ a : Address, Address.parse? a.text = some a ∧ '/' ∉ a.text.toList) ∧
    (∀ text a, Address.parse? text = some a → '/' ∉ text.toList) := by
  refine ⟨fun text p => parse_eq_ok_iff, fun text p => ?_, fun r hpos hle => ?_, fun a => ?_,
    fun text a ha => Address.slash_not_mem_of_parse? ha⟩
  · rw [network?_eq_some_iff, parse_eq_ok_iff]
  · rw [destinationText_of_pos hpos]
    exact parse_of_spells (p := r.network) (spells_text hle)
  · exact ⟨Address.parse?_text a, Address.slash_not_mem_text a⟩

def hostRoute : Route where
  family := .inet6
  destination := .v6 1
  prefixLength := 128
  gateway := none
  preferredSource := none
  outputInterface := none
  table := Table.main
  priority := 0
  type := RouteType.unicast.toByte
  protocol := 0
  scope := 0

theorem texts_read_exactly_hosts :
    1 ≤ hostRoute.prefixLength ∧ hostRoute.prefixLength ≤ hostRoute.destination.width ∧
    parse hostRoute.destinationText = .ok ⟨.v6 1, 128⟩ ∧
    CommandLine.network? "10.8.0.0/+016" = some ⟨.v4 0x0a080000, 16⟩ := by
  obtain ⟨-, hnetwork, hroute, -, -⟩ := texts_read_exactly
  have hfront : Address.parse? "10.8.0.0" = some (.v4 0x0a080000) := by decide +kernel
  have hdigits : Decimal.Denotes ['0', '1', '6'] 16 :=
    ⟨by decide, List.all_eq_true.1 (by decide), by decide⟩
  have hspells : Spells ("10.8.0.0" ++ "/" ++ "+016") ⟨.v4 0x0a080000, 16⟩ :=
    .addressAndLength (by decide) hfront (.inr rfl) hdigits (by decide)
  exact ⟨by decide, by decide, hroute hostRoute (by decide) (by decide),
    (hnetwork _ _).2 hspells⟩

end RouteControl.Prefix
