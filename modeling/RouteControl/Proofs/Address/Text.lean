import RouteControl.Address.Parser
import RouteControl.Address.Printer
import RouteControl.Proofs.Text.Decimal

/-!
# Address text

An address is read back from its text (`parse?_text`), and no text with a slash denotes an address
(`slash_not_mem_of_parse?`).  Fields are read one by one: octets between points, and groups between
colons.  Of the groups that are left out all that counts is that they are zeros, and how many they
are (`ZerosAt`).
-/

namespace RouteControl.Address

open Decimal

variable {text : List Char} {n : Nat}

/-! ## Fields -/

private theorem mem_intercalate {separator c : Char} {parts : List (List Char)}
    (h : c ∈ [separator].intercalate parts) : c = separator ∨ ∃ part ∈ parts, c ∈ part := by
  induction parts with
  | nil => simp at h
  | cons part rest ih =>
      cases rest with
      | nil => exact .inr ⟨part, by simpa using h⟩
      | cons next others =>
          rw [List.intercalate_cons_cons, List.mem_append, List.mem_append,
            List.mem_singleton] at h
          rcases h with (hpart | hseparator) | hothers
          · exact .inr ⟨part, List.mem_cons_self, hpart⟩
          · exact .inl hseparator
          · refine (ih hothers).imp_right fun ⟨other, hother, hc⟩ => ?_
            exact ⟨other, List.mem_cons_of_mem _ hother, hc⟩

private theorem mem_splitOn {separator c : Char} (h : c ∈ text) :
    c = separator ∨ ∃ part ∈ text.splitOn separator, c ∈ part :=
  mem_intercalate (by rwa [List.intercalate_splitOn])

private theorem isSome_of_mapM {α β : Type} {f : α → Option β} {as : List α} {bs : List β}
    (h : as.mapM f = some bs) : ∀ a ∈ as, (f a).isSome := by
  induction as generalizing bs with
  | nil => nofun
  | cons a rest ih =>
      rw [List.mapM_cons] at h
      cases ha : f a with
      | none => simp [ha] at h
      | some b =>
        cases hrest : rest.mapM f with
        | none => simp [ha, hrest] at h
        | some others => exact List.forall_mem_cons.2 ⟨by rw [ha]; rfl, ih hrest⟩

/-! ## Octets -/

theorem octet?_toDigits (h : n ≤ 255) : octet? (Nat.toDigits 10 n) = some n := by
  unfold octet?
  rw [if_neg, digits?_toDigits, within_eq_some_iff]
  · exact ⟨rfl, h⟩
  · rintro ⟨hzero, hother⟩
    rw [eq_zero_of_head?_toDigits hzero, Nat.toDigits_zero] at hother
    exact hother rfl

private theorem isDigit_of_octet? {digits : List Char} (h : octet? digits = some n) :
    ∀ c ∈ digits, c.isDigit := by
  unfold octet? at h
  split at h
  · cases h
  · rw [within_eq_some_iff, digits?_eq_some_iff] at h
    exact h.1.isDigit

private theorem char_of_quad? {bits : BitVec 32} (h : quad? text = some bits) :
    ∀ c ∈ text, c = '.' ∨ c.isDigit := by
  intro c hc
  refine (mem_splitOn hc).imp_right fun ⟨part, hpart, hmem⟩ => ?_
  have hread : (octet? part).isSome := by
    unfold quad? at h
    split at h
    · rename_i hparts
      have hoctet : octet? part ∈ (text.splitOn '.').map octet? := List.mem_map_of_mem hpart
      rw [hparts] at hoctet
      simp only [List.mem_cons, List.not_mem_nil, or_false] at hoctet
      rcases hoctet with hoctet | hoctet | hoctet | hoctet <;> rw [hoctet] <;> rfl
    · cases h
  obtain ⟨_, hoctet⟩ := Option.isSome_iff_exists.1 hread
  exact isDigit_of_octet? hoctet c hmem

private theorem toList_quadText (bits : BitVec 32) :
    (quadText bits).toList =
      ['.'].intercalate ((octets (v4 bits)).map fun octet => Nat.toDigits 10 octet.toNat) := by
  rw [quadText, String.toList_intercalate, List.map_map]
  simp only [Function.comp_def, Nat.toString_eq_repr, Nat.toList_repr]
  rfl

theorem quad?_quadText (bits : BitVec 32) : quad? (quadText bits).toList = some bits := by
  obtain ⟨a, b, c, d, hoctets⟩ : ∃ a b c d : UInt8, octets (v4 bits) = [a, b, c, d] :=
    ⟨_, _, _, _, rfl⟩
  have hword : Bytes.ofBigEndian [a, b, c, d] = bits.toNat := by
    rw [← hoctets, octets, Bytes.ofBigEndian_bigEndian]
    exact Nat.mod_eq_of_lt bits.isLt
  have hfields : (quadText bits).toList.splitOn '.' =
      [a, b, c, d].map fun octet => Nat.toDigits 10 octet.toNat := by
    rw [toList_quadText, hoctets]
    refine List.splitOn_intercalate '.' (fun digits hdigits hpoint => ?_) (List.cons_ne_nil _ _)
    obtain ⟨octet, -, rfl⟩ := List.mem_map.1 hdigits
    exact absurd ((denotes_toDigits _).isDigit '.' hpoint) (by decide)
  have hread : ∀ octet : UInt8, octet? (Nat.toDigits 10 octet.toNat) = some octet.toNat :=
    fun octet => octet?_toDigits (Nat.le_of_lt_succ octet.toNat_lt)
  rw [quad?, hfields]
  simp only [List.map_cons, List.map_nil, hread, Option.some.injEq]
  apply BitVec.eq_of_toNat_eq
  rw [BitVec.toNat_ofNat, ← hword]
  simp only [Bytes.ofBigEndian, List.reverse_cons, List.reverse_nil, List.nil_append,
    List.cons_append, Bytes.ofLittleEndian]
  have ha := a.toNat_lt
  have hb := b.toNat_lt
  have hc := c.toNat_lt
  have hd := d.toNat_lt
  omega

/-! ## Groups -/

private theorem hexDigit?_digitChar : ∀ d < 16, hexDigit? (Nat.digitChar d) = some d := by decide

private theorem exists_values_toDigits (n : Nat) :
    ∃ values, (Nat.toDigits 16 n).mapM hexDigit? = some values ∧
      values.foldl (fun n value => 16 * n + value) 0 = n := by
  induction n using Nat.base_induction 16 (by decide) with
  | single m hm =>
      refine ⟨[m], ?_, by simp⟩
      rw [Nat.toDigits_of_lt_base hm, List.mapM_cons, hexDigit?_digitChar m hm]
      rfl
  | digit m k hk hm ih =>
      obtain ⟨values, hvalues, hfold⟩ := ih
      refine ⟨values ++ [k], ?_, by rw [List.foldl_append, hfold]; rfl⟩
      rw [← Nat.toDigits_append_toDigits (by decide) hm hk, List.mapM_append, hvalues,
        Nat.toDigits_of_lt_base hk, List.mapM_cons, hexDigit?_digitChar k hk]
      rfl

theorem group?_toDigits (h : n < 65536) : group? (Nat.toDigits 16 n) = some n := by
  obtain ⟨values, hvalues, hfold⟩ := exists_values_toDigits n
  have hlength : (Nat.toDigits 16 n).length ≤ 4 :=
    (Nat.length_toDigits_le_iff (by decide) (by decide)).2 h
  rw [group?, if_neg (not_or.2 ⟨Nat.toDigits_ne_nil, Nat.not_lt.2 hlength⟩), hvalues,
    Option.map_some, hfold]

private theorem isSome_of_group? {digits : List Char} (h : group? digits = some n) :
    ∀ c ∈ digits, (hexDigit? c).isSome := by
  unfold group? at h
  split at h
  · cases h
  · obtain ⟨values, hvalues, -⟩ := Option.map_eq_some_iff.1 h
    exact isSome_of_mapM hvalues

private theorem isSome_of_mem_toDigits : ∀ c ∈ Nat.toDigits 16 n, (hexDigit? c).isSome := by
  obtain ⟨_, hvalues, -⟩ := exists_values_toDigits n
  exact isSome_of_mapM hvalues

theorem groups?_toDigits {groups : List Nat} (h : ∀ group ∈ groups, group < 65536)
    (endsInQuad : Bool) : groups? endsInQuad (groups.map (Nat.toDigits 16)) = some groups := by
  induction groups with
  | nil => rfl
  | cons group rest ih =>
      obtain ⟨hgroup, hrest⟩ := List.forall_mem_cons.1 h
      cases rest with
      | nil => simp [groups?, group?_toDigits hgroup]
      | cons next others =>
          have htail := ih hrest
          rw [List.map_cons] at htail
          simp only [List.map_cons, groups?, group?_toDigits hgroup, htail]

theorem toList_groupsText (groups : List Nat) :
    (groupsText groups).toList = [':'].intercalate (groups.map (Nat.toDigits 16)) := by
  rw [groupsText, String.toList_intercalate, List.map_map]
  simp only [Function.comp_def, String.toList_ofList]
  rfl

private theorem colon_not_mem_toDigits : ':' ∉ Nat.toDigits 16 n := fun h =>
  absurd (isSome_of_mem_toDigits ':' h) (by decide)

theorem fields_groupsText (groups : List Nat) :
    fields (groupsText groups).toList = groups.map (Nat.toDigits 16) := by
  rw [toList_groupsText]
  cases groups with
  | nil => rfl
  | cons group rest =>
      have hfields : ([':'].intercalate ((group :: rest).map (Nat.toDigits 16))).splitOn ':' = _ :=
        List.splitOn_intercalate ':' (List.forall_mem_map.2 fun _ _ => colon_not_mem_toDigits)
          (List.cons_ne_nil _ _)
      rw [fields, if_neg, hfields]
      intro hempty
      rw [hempty] at hfields
      exact Nat.toDigits_ne_nil (List.cons.inj hfields).1.symm

/-! ## Elision -/

private theorem elision?_cons_of_ne {c : Char} (h : c ≠ ':') (rest : List Char) :
    elision? (c :: rest) = (elision? rest).map fun (before, behind) => (c :: before, behind) := by
  rw [elision?]
  rintro _ rfl
  exact absurd rfl h

private theorem elision?_colon_cons_of_ne {c : Char} (h : c ≠ ':') (rest : List Char) :
    elision? (':' :: c :: rest) =
      (elision? (c :: rest)).map fun (before, behind) => (':' :: before, behind) := by
  rw [elision?]
  intro _ _ hcons
  exact absurd (List.cons.inj hcons).1 h

private theorem elision?_append {front : List Char} (h : ':' ∉ front) (rest : List Char) :
    elision? (front ++ rest) =
      (elision? rest).map fun (before, behind) => (front ++ before, behind) := by
  induction front with
  | nil => simp
  | cons c cs ih =>
      rw [List.mem_cons, not_or] at h
      rw [List.cons_append, elision?_cons_of_ne (Ne.symm h.1), ih h.2, Option.map_map]
      rfl

private theorem eq_of_elision? {before behind : List Char}
    (h : elision? text = some (before, behind)) :
    text = before ++ ':' :: ':' :: behind := by
  induction text using elision?.induct generalizing before with
  | case1 rest =>
      cases h
      rfl
  | case2 c rest hfront ih =>
      rw [elision?] at h
      · obtain ⟨⟨before', behind'⟩, hrest, hsame⟩ := Option.map_eq_some_iff.1 h
        cases hsame
        rw [ih hrest]
        rfl
      · exact hfront
  | case3 => cases h

/-- Where no colon of a text has another behind it, even if one more follows the text, the first two
adjacent colons are those that are put behind it. -/
private theorem elision?_append_colons (h : elision? (text ++ [':']) = none) (rest : List Char) :
    elision? (text ++ ':' :: ':' :: rest) = some (text, rest) := by
  induction text with
  | nil => rfl
  | cons c cs ih =>
      by_cases hc : c = ':'
      · subst hc
        cases cs with
        | nil => cases h
        | cons d ds =>
            by_cases hd : d = ':'
            · subst hd
              cases h
            · rw [List.cons_append, List.cons_append, elision?_colon_cons_of_ne hd,
                Option.map_eq_none_iff] at h
              rw [List.cons_append, List.cons_append, elision?_colon_cons_of_ne hd,
                ← List.cons_append, ih h]
              rfl
      · rw [List.cons_append, elision?_cons_of_ne hc, Option.map_eq_none_iff] at h
        rw [List.cons_append, elision?_cons_of_ne hc, ih h]
        rfl

private theorem exists_intercalate_cons (separator : List Char) (part : List Char)
    (rest : List (List Char)) :
    ∃ behind, separator.intercalate (part :: rest) = part ++ behind := by
  cases rest with
  | nil => exact ⟨[], by simp⟩
  | cons next others =>
      rw [List.intercalate_cons_cons, List.append_assoc]
      exact ⟨_, rfl⟩

private theorem elision?_intercalate {parts : List (List Char)} (hparts : ∀ part ∈ parts, part ≠ [])
    (hcolon : ∀ part ∈ parts, ':' ∉ part) {last : List Char} (hlast : elision? last = none) :
    elision? ([':'].intercalate parts ++ last) = none := by
  induction parts with
  | nil => exact hlast
  | cons part rest ih =>
      obtain ⟨hpart, hrest⟩ := List.forall_mem_cons.1 hcolon
      cases rest with
      | nil =>
          rw [List.intercalate_singleton, elision?_append hpart, hlast, Option.map_none]
      | cons next others =>
          have hnone := ih (List.forall_mem_cons.1 hparts).2 hrest
          obtain ⟨behind, hbehind⟩ := exists_intercalate_cons [':'] next others
          obtain ⟨d, ds, rfl⟩ := List.exists_cons_of_ne_nil (hparts next (by simp))
          have hd : d ≠ ':' := fun h => hrest (d :: ds) List.mem_cons_self (by simp [h])
          rw [hbehind] at hnone
          rw [List.intercalate_cons_cons, hbehind, List.append_assoc, List.append_assoc,
            elision?_append hpart]
          rw [List.cons_append, List.cons_append] at hnone ⊢
          rw [List.nil_append, List.cons_append, elision?_colon_cons_of_ne hd, hnone]
          rfl

/-- Nothing but zeros is left out between two colons. -/
def ZerosAt (groups : List Nat) (run : Nat × Nat) : Prop :=
  groups = groups.take run.1 ++ List.replicate run.2 0 ++ groups.drop (run.1 + run.2)

theorem zerosAt_zerosFrom (groups : List Nat) (start : Nat) :
    ZerosAt groups (start, zerosFrom groups start) := by
  have hrun : (groups.drop start).takeWhile (· = 0) ++ (groups.drop start).dropWhile (· = 0) =
      groups.drop start := List.takeWhile_append_dropWhile
  have hzeros : (groups.drop start).takeWhile (· = 0) =
      List.replicate (zerosFrom groups start) 0 :=
    List.eq_replicate_of_mem fun group hgroup => by
      simpa using List.all_eq_true.1 List.all_takeWhile group hgroup
  have hbehind : (groups.drop start).dropWhile (· = 0) =
      groups.drop (start + zerosFrom groups start) := by
    have hdrop := congrArg (List.drop (zerosFrom groups start)) hrun
    rw [List.drop_drop] at hdrop
    exact List.drop_left.symm.trans hdrop
  calc groups = groups.take start ++ groups.drop start := (List.take_append_drop ..).symm
    _ = groups.take start ++ List.replicate (zerosFrom groups start) 0 ++
          groups.drop (start + zerosFrom groups start) := by
        rw [← hrun, hzeros, hbehind, List.append_assoc]

theorem zerosAt_longestRun (groups : List Nat) : ZerosAt groups (longestRun groups) := by
  have hbest : ∀ (starts : List Nat) (best : Nat × Nat), ZerosAt groups best →
      ZerosAt groups (starts.foldl (fun best start =>
        if best.2 < zerosFrom groups start then (start, zerosFrom groups start) else best)
        best) := by
    intro starts
    induction starts with
    | nil => exact fun _ h => h
    | cons start rest ih =>
        intro best h
        rw [List.foldl_cons]
        refine ih _ ?_
        split
        · exact zerosAt_zerosFrom groups start
        · exact h
  exact hbest _ _ (by simp [ZerosAt])

theorem lt_of_mem_groups {bits : BitVec 128} : ∀ group ∈ groups bits, group < 65536 :=
  List.forall_mem_map.2 fun _ _ => Nat.mod_lt _ (by decide)

theorem ofGroups_groups (bits : BitVec 128) : ofGroups (groups bits) = bits := by
  apply BitVec.eq_of_toNat_eq
  have hbits := bits.isLt
  have hgroups : groups bits = [bits.toNat / 2 ^ 112 % 65536, bits.toNat / 2 ^ 96 % 65536,
      bits.toNat / 2 ^ 80 % 65536, bits.toNat / 2 ^ 64 % 65536, bits.toNat / 2 ^ 48 % 65536,
      bits.toNat / 2 ^ 32 % 65536, bits.toNat / 2 ^ 16 % 65536, bits.toNat % 65536] := by
    simp [groups, List.range_succ, Nat.shiftRight_eq_div_pow]
  rw [ofGroups, hgroups, BitVec.toNat_ofNat]
  simp only [List.foldl_cons, List.foldl_nil]
  omega

private theorem elision?_groupsText_append (groups : List Nat) {last : List Char}
    (hlast : elision? last = none) : elision? ((groupsText groups).toList ++ last) = none := by
  rw [toList_groupsText]
  exact elision?_intercalate (List.forall_mem_map.2 fun _ _ => Nat.toDigits_ne_nil)
    (List.forall_mem_map.2 fun _ _ => colon_not_mem_toDigits) hlast

theorem hextet?_compressedText {groups : List Nat} (hlength : groups.length = 8)
    (h : ∀ group ∈ groups, group < 65536) :
    hextet? (compressedText groups).toList = some (ofGroups groups) := by
  have hzeros := zerosAt_longestRun groups
  unfold compressedText
  generalize longestRun groups = run at hzeros ⊢
  obtain ⟨start, length⟩ := run
  simp only
  split
  · have hnone := @elision?_groupsText_append groups [] rfl
    rw [List.append_nil] at hnone
    rw [hextet?, hnone]
    simp only [fields_groupsText, groups?_toDigits h, hlength, if_true]
  · rename_i hlong
    have hcount : (groups.take start).length + length + (groups.drop (start + length)).length =
        8 := by
      have hsame := congrArg List.length hzeros
      simp only [List.length_append, List.length_replicate] at hsame
      omega
    have htext : (groupsText (groups.take start) ++ "::" ++
        groupsText (groups.drop (start + length))).toList =
        (groupsText (groups.take start)).toList ++
          ':' :: ':' :: (groupsText (groups.drop (start + length))).toList := by
      simp
    rw [hextet?, htext, elision?_append_colons (elision?_groupsText_append _ rfl)]
    simp only [fields_groupsText]
    rw [groups?_toDigits fun group hgroup => h group (List.mem_of_mem_take hgroup),
      groups?_toDigits fun group hgroup => h group (List.mem_of_mem_drop hgroup)]
    simp only
    rw [if_pos (by omega)]
    have hleft : 8 - (groups.take start).length - (groups.drop (start + length)).length =
        length := by omega
    rw [hleft, ← hzeros]

/-! ## Version 4 in version 6 -/

private theorem point_mem_quadText (bits : BitVec 32) : '.' ∈ (quadText bits).toList := by
  rw [toList_quadText]
  change '.' ∈ ['.'].intercalate (_ :: _ :: _)
  rw [List.intercalate_cons_cons]
  simp

private theorem colon_not_mem_of_quad? {bits : BitVec 32} (h : quad? text = some bits) :
    ':' ∉ text := by
  intro hcolon
  rcases char_of_quad? h ':' hcolon with hpoint | hdigit
  · exact absurd hpoint (by decide)
  · exact absurd hdigit (by decide)

theorem group?_quadText (bits : BitVec 32) : group? (quadText bits).toList = none := by
  cases hgroup : group? (quadText bits).toList with
  | none => rfl
  | some _ => exact absurd (isSome_of_group? hgroup '.' (point_mem_quadText bits)) (by decide)

theorem hextet?_mapped (bits : BitVec 32) :
    hextet? ("::ffff:" ++ quadText bits).toList =
      some (ofGroups [0, 0, 0, 0, 0, 65535, bits.toNat / 65536, bits.toNat % 65536]) := by
  have htext : ("::ffff:" ++ quadText bits).toList =
      ':' :: ':' :: [':'].intercalate [['f', 'f', 'f', 'f'], (quadText bits).toList] := by
    rw [String.toList_append, List.intercalate_cons_cons, List.intercalate_singleton]
    rfl
  have hfields : fields ([':'].intercalate [['f', 'f', 'f', 'f'], (quadText bits).toList]) =
      [['f', 'f', 'f', 'f'], (quadText bits).toList] := by
    rw [fields, if_neg (by simp [List.intercalate_cons_cons])]
    refine List.splitOn_intercalate ':' ?_ (List.cons_ne_nil _ _)
    simpa using colon_not_mem_of_quad? (quad?_quadText bits)
  have hffff : group? ['f', 'f', 'f', 'f'] = some 65535 := by decide
  rw [hextet?, htext, elision?]
  simp only [hfields, groups?, hffff, group?_quadText, quad?_quadText]
  rfl

theorem ofGroups_mapped {bits : BitVec 128} (h : bits.toNat >>> 32 = 0xFFFF) :
    ofGroups [0, 0, 0, 0, 0, 65535, (bits.truncate 32).toNat / 65536,
      (bits.truncate 32).toNat % 65536] = bits := by
  apply BitVec.eq_of_toNat_eq
  rw [Nat.shiftRight_eq_div_pow] at h
  rw [ofGroups, BitVec.toNat_ofNat, BitVec.truncate_eq_setWidth, BitVec.toNat_setWidth]
  simp only [List.foldl_cons, List.foldl_nil]
  omega

/-! ## Both versions -/

private theorem colon_mem_groupsText {groups : List Nat} (h : 2 ≤ groups.length) :
    ':' ∈ (groupsText groups).toList := by
  rw [toList_groupsText]
  cases groups with
  | nil => simp at h
  | cons first rest =>
      cases rest with
      | nil => simp at h
      | cons second others =>
          rw [List.map_cons, List.map_cons, List.intercalate_cons_cons]
          simp

private theorem colon_mem_compressedText {groups : List Nat} (h : 2 ≤ groups.length) :
    ':' ∈ (compressedText groups).toList := by
  unfold compressedText
  split
  split
  · exact colon_mem_groupsText h
  · simp

/-- Version 4 is tried first, but its texts have no colons. -/
theorem parse?_of_hextet? {s : String} {bits : BitVec 128} (hcolon : ':' ∈ s.toList)
    (h : hextet? s.toList = some bits) : parse? s = some (v6 bits) := by
  unfold parse?
  cases hquad : quad? s.toList with
  | none => rw [h]; rfl
  | some _ => exact absurd hcolon (colon_not_mem_of_quad? hquad)

theorem parse?_text (a : Address) : parse? a.text = some a := by
  cases a with
  | v4 bits => rw [text, parse?, quad?_quadText]
  | v6 bits =>
      rw [text]
      split
      · rename_i hmapped
        rw [parse?_of_hextet? (by simp) (hextet?_mapped _), ofGroups_mapped hmapped]
      · have hlength : (groups bits).length = 8 := by simp [groups]
        rw [parse?_of_hextet? (colon_mem_compressedText (by omega))
          (hextet?_compressedText hlength lt_of_mem_groups), ofGroups_groups]

/-! ## What no address has in its text -/

def IsFieldChar (c : Char) : Prop := c = '.' ∨ (hexDigit? c).isSome

theorem isFieldChar_of_isDigit {c : Char} (h : c.isDigit) : IsFieldChar c := by
  rw [IsFieldChar, hexDigit?, if_pos h]
  exact .inr rfl

theorem isFieldChar_of_quad? {bits : BitVec 32} (h : quad? text = some bits) :
    ∀ c ∈ text, IsFieldChar c :=
  fun c hc => (char_of_quad? h c hc).elim .inl isFieldChar_of_isDigit

theorem isFieldChar_of_group? {digits : List Char} (h : group? digits = some n) :
    ∀ c ∈ digits, IsFieldChar c :=
  fun c hc => .inr (isSome_of_group? h c hc)

theorem isFieldChar_of_groups? {endsInQuad : Bool} {parts : List (List Char)} {groups : List Nat}
    (h : groups? endsInQuad parts = some groups) : ∀ part ∈ parts, ∀ c ∈ part, IsFieldChar c := by
  induction parts generalizing groups with
  | nil => nofun
  | cons part rest ih =>
      cases rest with
      | nil =>
          refine List.forall_mem_singleton.2 ?_
          unfold groups? at h
          split at h
          · exact isFieldChar_of_group? ‹_›
          · exact isFieldChar_of_quad? ‹_›
          · cases h
      | cons next others =>
          unfold groups? at h
          split at h
          · exact List.forall_mem_cons.2 ⟨isFieldChar_of_group? ‹_›, ih ‹_›⟩
          · cases h

private theorem mem_fields {c : Char} (h : c ∈ text) :
    c = ':' ∨ ∃ part ∈ fields text, c ∈ part := by
  rw [fields, if_neg (List.ne_nil_of_mem h)]
  exact mem_splitOn h

theorem char_of_groups? {endsInQuad : Bool} {groups : List Nat}
    (h : groups? endsInQuad (fields text) = some groups) :
    ∀ c ∈ text, c = ':' ∨ IsFieldChar c := by
  intro c hc
  refine (mem_fields hc).imp_right fun ⟨part, hpart, hmem⟩ => ?_
  exact isFieldChar_of_groups? h part hpart c hmem

theorem char_of_hextet? {bits : BitVec 128} (h : hextet? text = some bits) :
    ∀ c ∈ text, c = ':' ∨ IsFieldChar c := by
  unfold hextet? at h
  split at h
  · split at h
    · exact char_of_groups? ‹_›
    · cases h
  · rename_i before behind helision
    split at h
    · rename_i hbefore hbehind
      intro c hc
      rw [eq_of_elision? helision] at hc
      simp only [List.mem_append, List.mem_cons] at hc
      rcases hc with hc | hc | hc | hc
      · exact char_of_groups? hbefore c hc
      · exact .inl hc
      · exact .inl hc
      · exact char_of_groups? hbehind c hc
    · cases h

theorem slash_not_mem_of_parse? {s : String} {a : Address} (h : parse? s = some a) :
    '/' ∉ s.toList := by
  intro hslash
  have hchar : '/' = ':' ∨ IsFieldChar '/' := by
    unfold parse? at h
    split at h
    · exact .inr (isFieldChar_of_quad? ‹_› '/' hslash)
    · obtain ⟨bits, hbits, -⟩ := Option.map_eq_some_iff.1 h
      exact char_of_hextet? hbits '/' hslash
  rcases hchar with hcolon | hpoint | hhex
  · exact absurd hcolon (by decide)
  · exact absurd hpoint (by decide)
  · exact absurd hhex (by decide)

theorem slash_not_mem_text (a : Address) : '/' ∉ a.text.toList :=
  slash_not_mem_of_parse? (parse?_text a)

end RouteControl.Address
