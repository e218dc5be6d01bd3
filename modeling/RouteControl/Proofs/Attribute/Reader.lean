import RouteControl.Proofs.Attribute.Row

/-!
# Readers of attributes

A reader has bytes before it and yields the kind and the payload of the attribute at their front
each time it is asked; where none is well formed it yields nothing, then and ever after (`nth_eq`).
Whatever the bytes are, the attributes lie at places that follow from one length to the next
(`Chain`), on the grid, apart from one another and inside the bytes that are read
(`Chain.walk_extract`, `Chain.pairwise`).  Their lengths in words add up to no more than all words
that there are (`Chain.sum_le`), so that reading payloads again, and theirs, and so on, comes to an
end and finds at most one attribute for every four bytes (`walks_stay_inside`).
-/

namespace RouteControl

namespace Bytes

variable {bytes : Bytes} {start stop offset : Nat}

private theorem extract_whole (bytes : Bytes) : bytes.extract 0 bytes.length = bytes := by
  rw [List.extract_eq_take_drop, List.drop_zero, Nat.sub_zero, List.take_length]

private theorem length_extract (h : stop ≤ bytes.length) :
    (bytes.extract start stop).length = stop - start := by
  rw [List.extract_eq_take_drop, List.length_take, List.length_drop]
  omega

private theorem uint16At_extract (h : start + offset + 2 ≤ stop) :
    uint16At (bytes.extract start stop) offset = uint16At bytes (start + offset) := by
  have hroom : 2 ≤ stop - start - offset := by omega
  unfold uint16At
  rw [List.extract_eq_take_drop, List.drop_take, List.drop_drop, List.take_take,
    Nat.min_eq_left hroom]

private theorem drop_extract (count : Nat) :
    (bytes.extract start stop).drop count = bytes.extract (start + count) stop := by
  simp only [List.extract_eq_take_drop]
  rw [List.drop_take, List.drop_drop, Nat.sub_sub]

private theorem take_extract {count : Nat} (h : start + count ≤ stop) :
    (bytes.extract start stop).take count = bytes.extract start (start + count) := by
  have hroom : count ≤ stop - start := by omega
  simp only [List.extract_eq_take_drop]
  rw [List.take_take, Nat.min_eq_left hroom, Nat.add_sub_cancel_left]

end Bytes

namespace Attribute

open Bytes

/-! ## Asking a reader -/

/-- What a reader yields that has these bytes before it, and what it has before it then. -/
def ask (bytes : Bytes) : Option (UInt16 × Bytes) × Bytes :=
  match next? bytes with
  | some (a, rest) => (some (a.kind, a.payload), rest)
  | none => (none, if isExhausted bytes then bytes else [])

/-- What the reader yields when it was asked so many times before. -/
def nth : Nat → Bytes → Option (UInt16 × Bytes)
  | 0, bytes => (ask bytes).1
  | n + 1, bytes => nth n (ask bytes).2

theorem entries_of_none {bytes : Bytes} (h : next? bytes = none) : entries bytes = [] := by
  rw [entries, walk_of_none h, List.map_nil]

theorem entries_of_some {bytes rest : Bytes} {a : Attribute} (h : next? bytes = some (a, rest)) :
    entries bytes = (a.kind, a.payload) :: entries rest := by
  rw [entries, walk_of_some h, List.map_cons, entries]

theorem entries_ask_of_none {bytes : Bytes} (h : next? bytes = none) :
    entries (ask bytes).2 = [] := by
  simp only [ask, h]
  split
  · exact entries_of_none h
  · exact entries_of_none rfl

theorem nth_eq (n : Nat) (bytes : Bytes) : nth n bytes = (entries bytes)[n]? := by
  induction n generalizing bytes with
  | zero =>
      rw [nth]
      cases hnext : next? bytes with
      | none => simp [ask, hnext, entries_of_none hnext]
      | some found => simp [ask, hnext, entries_of_some hnext]
  | succ n ih =>
      rw [nth, ih]
      cases hnext : next? bytes with
      | none => simp [entries_ask_of_none hnext, entries_of_none hnext]
      | some found => simp [ask, hnext, entries_of_some hnext]

/-! ## Places -/

def lengthAt (bytes : Bytes) (offset : Nat) : Nat := (bytes.uint16At offset).toNat

/-- The length that is told at an offset counts the header at least, and does not go beyond the end
of what is read. -/
def IsWholeAt (bytes : Bytes) (stop offset : Nat) : Prop :=
  4 ≤ lengthAt bytes offset ∧ offset + lengthAt bytes offset ≤ stop

instance (bytes : Bytes) (stop offset : Nat) : Decidable (IsWholeAt bytes stop offset) := by
  unfold IsWholeAt
  infer_instance

def attributeAt (bytes : Bytes) (offset : Nat) : Attribute where
  type := bytes.uint16At (offset + 2)
  payload := bytes.extract (offset + 4) (offset + lengthAt bytes offset)

/-- The kind at an offset, without the two flag bits, and the payload. -/
def entryAt (bytes : Bytes) (offset : Nat) : UInt16 × Bytes :=
  (bytes.uint16At (offset + 2) &&& 0x3FFF,
    bytes.extract (offset + 4) (offset + lengthAt bytes offset))

variable {bytes : Bytes} {start stop last offset : Nat} {offsets : List Nat}

private theorem not_isWholeAt_iff :
    ¬IsWholeAt bytes stop offset ↔
      stop - offset < 4 ∨ lengthAt bytes offset < 4 ∨ stop - offset < lengthAt bytes offset := by
  unfold IsWholeAt
  omega

private theorem lengthAt_extract (h : start + 4 ≤ stop) :
    lengthAt (bytes.extract start stop) 0 = lengthAt bytes start := by
  unfold lengthAt
  rw [uint16At_extract (by omega), Nat.add_zero]

private theorem length_payload_attributeAt (hstop : stop ≤ bytes.length)
    (h : IsWholeAt bytes stop offset) :
    (attributeAt bytes offset).payload.length + 4 = lengthAt bytes offset := by
  obtain ⟨hsize, hroom⟩ := h
  show (bytes.extract (offset + 4) (offset + lengthAt bytes offset)).length + 4 = _
  rw [length_extract (Nat.le_trans hroom hstop)]
  omega

theorem next?_extract_of_whole (hstop : stop ≤ bytes.length) (h : IsWholeAt bytes stop start) :
    next? (bytes.extract start stop) =
      some (attributeAt bytes start,
        bytes.extract (start + align (lengthAt bytes start)) stop) := by
  obtain ⟨hsize, hroom⟩ := h
  have hlength : (uint16At (bytes.extract start stop) 0).toNat = lengthAt bytes start :=
    lengthAt_extract (by omega)
  have htype : uint16At (bytes.extract start stop) 2 = uint16At bytes (start + 2) :=
    uint16At_extract (by omega)
  have hwell : ¬(isExhausted (bytes.extract start stop) ∨
      lengthAt bytes start < AttributeHeader.size ∨
        (bytes.extract start stop).length < lengthAt bytes start) := by
    simp only [isExhausted, AttributeHeader.size, length_extract hstop, decide_eq_true_eq]
    omega
  simp only [next?, hlength]
  rw [if_neg hwell, htype, take_extract hroom, drop_extract, drop_extract]
  rfl

theorem next?_extract_of_not_whole (hstop : stop ≤ bytes.length)
    (h : ¬IsWholeAt bytes stop start) : next? (bytes.extract start stop) = none := by
  have hlong : (bytes.extract start stop).length = stop - start := length_extract hstop
  simp only [next?, isExhausted, AttributeHeader.size, hlong, decide_eq_true_eq]
  rw [if_pos]
  by_cases hshort : stop - start < 4
  · exact .inl hshort
  · have hlength : (uint16At (bytes.extract start stop) 0).toNat = lengthAt bytes start :=
      lengthAt_extract (by omega)
    rw [hlength]
    exact not_isWholeAt_iff.1 h

/-! ## Chains -/

/-- From `start` on, attributes lie at these offsets, each on the grid line behind the one before
it; at `last` there is none. -/
inductive Chain (bytes : Bytes) (stop : Nat) : Nat → List Nat → Nat → Prop
  | ended {start : Nat} (h : ¬IsWholeAt bytes stop start) : Chain bytes stop start [] start
  | linked {start last : Nat} {offsets : List Nat} (hwhole : IsWholeAt bytes stop start)
      (h : Chain bytes stop (start + align (lengthAt bytes start)) offsets last) :
      Chain bytes stop start (start :: offsets) last

theorem exists_chain (bytes : Bytes) (stop start : Nat) :
    ∃ offsets last, Chain bytes stop start offsets last := by
  -- The induction is on the bytes that are left: an attribute takes its header at least.
  generalize hleft : stop - start = left
  induction left using Nat.strongRecOn generalizing start with
  | ind left ih =>
      by_cases h : IsWholeAt bytes stop start
      · have hle := le_align (lengthAt bytes start)
        have hless : stop - (start + align (lengthAt bytes start)) < left := by
          unfold IsWholeAt at h
          omega
        obtain ⟨offsets, last, hchain⟩ := ih _ hless _ rfl
        exact ⟨_, _, .linked h hchain⟩
      · exact ⟨_, _, .ended h⟩

namespace Chain

theorem walk_extract (h : Chain bytes stop start offsets last) (hstop : stop ≤ bytes.length) :
    walk (bytes.extract start stop) = offsets.map (attributeAt bytes) := by
  induction h with
  | ended h => exact walk_of_none (next?_extract_of_not_whole hstop h)
  | linked hwhole _ ih =>
      rw [walk_of_some (next?_extract_of_whole hstop hwhole), ih, List.map_cons]

theorem entries_extract (h : Chain bytes stop start offsets last) (hstop : stop ≤ bytes.length) :
    entries (bytes.extract start stop) = offsets.map (entryAt bytes) := by
  rw [entries, h.walk_extract hstop, List.map_map]
  rfl

theorem isWholeAt (h : Chain bytes stop start offsets last) :
    ∀ offset ∈ offsets, IsWholeAt bytes stop offset := by
  induction h with
  | ended => simp
  | linked hwhole _ ih => exact List.forall_mem_cons.2 ⟨hwhole, ih⟩

theorem not_isWholeAt (h : Chain bytes stop start offsets last) : ¬IsWholeAt bytes stop last := by
  induction h with
  | ended h => exact h
  | linked _ _ ih => exact ih

theorem start_le (h : Chain bytes stop start offsets last) :
    ∀ offset ∈ offsets, start ≤ offset := by
  induction h with
  | ended => simp
  | linked _ _ ih =>
      refine List.forall_mem_cons.2 ⟨Nat.le_refl _, fun offset hoffset => ?_⟩
      exact Nat.le_of_add_right_le (ih offset hoffset)

theorem mod_four (h : Chain bytes stop start offsets last) (hstart : start % 4 = 0) :
    ∀ offset ∈ offsets, offset % 4 = 0 := by
  induction h with
  | ended => simp
  | @linked start last offsets _ _ ih =>
      have haligned := align_mod_four (lengthAt bytes start)
      exact List.forall_mem_cons.2 ⟨hstart, ih (by omega)⟩

theorem pairwise (h : Chain bytes stop start offsets last) :
    offsets.Pairwise fun offset next => offset + lengthAt bytes offset ≤ next := by
  induction h with
  | ended => exact .nil
  | @linked start last offsets _ hrest ih =>
      refine .cons (fun next hnext => ?_) ih
      have hbehind := hrest.start_le next hnext
      have hle := le_align (lengthAt bytes start)
      omega

/-- What is counted for each attribute, at most one for each whole word of it, adds up to no more
than the whole words that are read. -/
theorem sum_le (h : Chain bytes stop start offsets last) {weight : Nat → Nat}
    (hweight : ∀ offset ∈ offsets, weight offset ≤ lengthAt bytes offset / 4) :
    (offsets.map weight).sum ≤ (stop - start) / 4 := by
  induction h with
  | ended => exact Nat.zero_le _
  | @linked start last offsets hwhole _ ih =>
      obtain ⟨hfirst, hrest⟩ := List.forall_mem_cons.1 hweight
      have hsum := ih hrest
      rw [List.map_cons, List.sum_cons]
      unfold IsWholeAt at hwhole
      unfold align at hsum
      omega

theorem length_le (h : Chain bytes stop start offsets last) :
    offsets.length ≤ (stop - start) / 4 := by
  have hone : ∀ offset ∈ offsets, 1 ≤ lengthAt bytes offset / 4 := by
    intro offset hoffset
    have hwhole := h.isWholeAt offset hoffset
    unfold IsWholeAt at hwhole
    omega
  have hcount : (offsets.map fun _ => 1).sum = offsets.length := by
    rw [List.map_const', List.sum_replicate_nat, Nat.mul_one]
  rw [← hcount]
  exact h.sum_le hone

theorem increasing (h : Chain bytes stop start offsets last) : offsets.Pairwise (· < ·) := by
  refine h.pairwise.imp_of_mem fun hoffset _ hnext => ?_
  have hwhole := h.isWholeAt _ hoffset
  unfold IsWholeAt at hwhole
  omega

theorem nth_extract (h : Chain bytes stop start offsets last) (hstop : stop ≤ bytes.length)
    (n : Nat) : nth n (bytes.extract start stop) = (offsets[n]?).map (entryAt bytes) := by
  rw [nth_eq, h.entries_extract hstop, List.getElem?_map]

end Chain

/-! ## Payloads as attributes -/

/-- The stretches of bytes that are read at some depth: all bytes, and then the payload of any
attribute that lies in a stretch one level above. -/
inductive Reached (bytes : Bytes) : Nat → Nat → Nat → Prop
  | whole : Reached bytes 0 0 bytes.length
  | payload {depth start stop last offset : Nat} {offsets : List Nat}
      (h : Reached bytes depth start stop) (hchain : Chain bytes stop start offsets last)
      (hoffset : offset ∈ offsets) :
      Reached bytes (depth + 1) (offset + 4) (offset + lengthAt bytes offset)

theorem Reached.bounds {depth : Nat} (h : Reached bytes depth start stop) :
    start ≤ stop ∧ stop ≤ bytes.length := by
  induction h with
  | whole => exact ⟨Nat.zero_le _, Nat.le_refl _⟩
  | payload _ hchain hoffset ih =>
      have hwhole := hchain.isWholeAt _ hoffset
      unfold IsWholeAt at hwhole
      omega

/-- How many attributes are found when payloads are read again as attributes, down to a depth. -/
def count : Nat → Bytes → Nat
  | 0, bytes => (walk bytes).length
  | depth + 1, bytes => ((walk bytes).map fun a => 1 + count depth a.payload).sum

private theorem exists_chain_whole (bytes : Bytes) :
    ∃ offsets last, Chain bytes bytes.length 0 offsets last ∧
      walk bytes = offsets.map (attributeAt bytes) := by
  obtain ⟨offsets, last, hchain⟩ := exists_chain bytes bytes.length 0
  have hwalk := hchain.walk_extract (Nat.le_refl _)
  rw [extract_whole] at hwalk
  exact ⟨offsets, last, hchain, hwalk⟩

theorem count_le (depth : Nat) (bytes : Bytes) : count depth bytes ≤ bytes.length / 4 := by
  induction depth generalizing bytes with
  | zero =>
      obtain ⟨offsets, last, hchain, hwalk⟩ := exists_chain_whole bytes
      rw [count, hwalk, List.length_map]
      exact hchain.length_le
  | succ depth ih =>
      obtain ⟨offsets, last, hchain, hwalk⟩ := exists_chain_whole bytes
      rw [count, hwalk, List.map_map]
      apply hchain.sum_le
      intro offset hoffset
      have hpayload := length_payload_attributeAt (Nat.le_refl _) (hchain.isWholeAt offset hoffset)
      have hinner := ih (attributeAt bytes offset).payload
      show 1 + count depth (attributeAt bytes offset).payload ≤ _
      omega

/-- Each level takes at least one word, so that behind as many levels nothing is left. -/
theorem count_succ {depth : Nat} {bytes : Bytes} (h : bytes.length / 4 ≤ depth) :
    count (depth + 1) bytes = count depth bytes := by
  induction depth generalizing bytes with
  | zero =>
      have hcount := count_le (0 + 1) bytes
      have hnone := count_le 0 bytes
      omega
  | succ depth ih =>
      obtain ⟨offsets, last, hchain, hwalk⟩ := exists_chain_whole bytes
      rw [count, count, hwalk, List.map_map, List.map_map]
      congr 1
      apply List.map_congr_left
      intro offset hoffset
      have hpayload := length_payload_attributeAt (Nat.le_refl _) (hchain.isWholeAt offset hoffset)
      have hwhole := hchain.isWholeAt offset hoffset
      unfold IsWholeAt at hwhole
      have hinner : count (depth + 1) (attributeAt bytes offset).payload =
          count depth (attributeAt bytes offset).payload := ih (by omega)
      show 1 + count (depth + 1) _ = 1 + count depth _
      rw [hinner]

private theorem count_of_le {depth : Nat} (h : bytes.length / 4 ≤ depth) :
    count depth bytes = count (bytes.length / 4) bytes := by
  induction h with
  | refl => rfl
  | step hle ih => rw [count_succ hle, ih]

/-- Whatever the bytes are, a reader yields attributes at places that follow from one length to the
next, on the grid, in order and apart from one another, inside the bytes, at most one for every four
of them; and it is at an end for good at the first place where there is no room for a header, or
where the length is below that of a header or beyond the end.  A payload that is read again, to any
depth, is read inside its own bytes; and all that is found so is at most one attribute for every
four bytes, of which none lies deeper than that number. -/
theorem walks_stay_inside (d : Bytes) :
    (∃ offsets last, Chain d d.length 0 offsets last ∧
      (∀ n, nth n d = (offsets[n]?).map (entryAt d)) ∧
      offsets.length ≤ d.length / 4 ∧
      offsets.Pairwise (· < ·) ∧
      (∀ offset ∈ offsets,
        offset % 4 = 0 ∧ 4 ≤ lengthAt d offset ∧ offset + lengthAt d offset ≤ d.length) ∧
      offsets.Pairwise (fun offset next => offset + lengthAt d offset ≤ next) ∧
      (d.length - last < 4 ∨ lengthAt d last < 4 ∨ d.length - last < lengthAt d last)) ∧
    (∀ depth start stop, Reached d depth start stop →
      start ≤ stop ∧ stop ≤ d.length ∧
      ∃ offsets last, Chain d stop start offsets last ∧
        (∀ n, nth n (d.extract start stop) = (offsets[n]?).map (entryAt d)) ∧
        ∀ offset ∈ offsets, start ≤ offset ∧ offset + lengthAt d offset ≤ stop) ∧
    ∀ depth, count depth d ≤ d.length / 4 ∧
      (d.length / 4 ≤ depth → count depth d = count (d.length / 4) d) := by
  refine ⟨?_, ?_, fun depth => ⟨count_le depth d, count_of_le⟩⟩
  · obtain ⟨offsets, last, hchain⟩ := exists_chain d d.length 0
    have hyields := hchain.nth_extract (Nat.le_refl _)
    rw [extract_whole] at hyields
    refine ⟨offsets, last, hchain, hyields, hchain.length_le, hchain.increasing, ?_,
      hchain.pairwise, not_isWholeAt_iff.1 hchain.not_isWholeAt⟩
    intro offset hoffset
    exact ⟨hchain.mod_four rfl offset hoffset, hchain.isWholeAt offset hoffset⟩
  · intro depth start stop hreached
    obtain ⟨hle, hstop⟩ := hreached.bounds
    obtain ⟨offsets, last, hchain⟩ := exists_chain d stop start
    refine ⟨hle, hstop, offsets, last, hchain, hchain.nth_extract hstop, ?_⟩
    intro offset hoffset
    exact ⟨hchain.start_le offset hoffset, (hchain.isWholeAt offset hoffset).2⟩

def overlongRow : Bytes := [12, 0, 8, 0x80, 8, 0, 2, 0, 1, 2, 3, 4, 200, 0, 1, 0]

theorem walks_stay_inside_overlongRow :
    nth 0 overlongRow = some (8, [8, 0, 2, 0, 1, 2, 3, 4]) ∧
    (∀ n, 0 < n → nth n overlongRow = none) ∧
    Reached overlongRow 1 4 12 ∧
    nth 0 (overlongRow.extract 4 12) = some (2, [1, 2, 3, 4]) ∧
    2 ≤ overlongRow.length / 4 ∧ count 2 overlongRow ≤ 4 := by
  obtain ⟨⟨offsets, last, hchain, hyields, -⟩, hinside, hcount⟩ := walks_stay_inside overlongRow
  have hfirst : offsets = [0] := by
    cases hchain with
    | ended h => exact absurd (by decide) h
    | linked _ h =>
        cases h with
        | ended => rfl
        | linked h => exact absurd h (by decide)
  subst hfirst
  have hreached : Reached overlongRow 1 4 12 := .payload .whole hchain (List.mem_singleton_self 0)
  obtain ⟨-, -, inner, innerLast, hinner, hinnerYields, -⟩ := hinside 1 4 12 hreached
  have hsecond : inner = [4] := by
    cases hinner with
    | ended h => exact absurd (by decide) h
    | linked _ h =>
        cases h with
        | ended => rfl
        | linked h => exact absurd h (by decide)
  subst hsecond
  refine ⟨?_, ?_, hreached, ?_, by decide, (hcount 2).1⟩
  · rw [hyields]
    decide
  · intro n hn
    rw [hyields, List.getElem?_eq_none (Nat.succ_le_of_lt hn), Option.map_none]
  · rw [hinnerYields]
    decide

end Attribute

end RouteControl
