import Mathlib.Data.List.Forall2
import RouteControl.Proofs.Kernel.Script

/-!
# Readers

A reader has bytes before it and yields what lies at their front each time it is asked: a message,
or the error of a faulty length, behind which it goes no further.  Asked however often, it yields
what the bytes are read as, and then nothing (`nth_eq`).  What it yields at a message, at a faulty
length and at the end is told from the length field alone (`yielded_of_leads`,
`yielded_of_faulty`, `yielded_of_short`).
-/

namespace RouteControl

namespace Message

open MessageHeader

variable {bytes rest : Bytes} {m : Message} {messages : List Message}

/-- What a reader yields that has these bytes before it, and what it has before it then. -/
def next (bytes : Bytes) : Option (Except Error Message) × Bytes :=
  match front bytes with
  | .finished => (none, bytes)
  | .faulty length => (some (.error (Reading.faultError length)), [])
  | .message m rest => (some (.ok m), rest)

/-- What the reader yields when it was asked so many times before. -/
def nth : Nat → Bytes → Option (Except Error Message)
  | 0, bytes => (next bytes).1
  | n + 1, bytes => nth n (next bytes).2

/-- What the bytes are read as: the messages in order, and the error of the fault, if any. -/
def yielded (bytes : Bytes) : List (Except Error Message) :=
  (read bytes).messages.map .ok ++
    (read bytes).fault.toList.map fun length => .error (Reading.faultError length)

/-- The length at the front counts the header at least, and does not go beyond the end. -/
def IsWhole (bytes : Bytes) : Prop :=
  size ≤ (bytes.uint32At 0).toNat ∧ (bytes.uint32At 0).toNat ≤ bytes.length

instance (bytes : Bytes) : Decidable (IsWhole bytes) := by
  unfold IsWhole
  infer_instance

/-- At the front of the bytes lie these messages, each on the grid, and behind them the rest. -/
inductive Leads : Bytes → List Message → Bytes → Prop
  | here (bytes : Bytes) : Leads bytes [] bytes
  | behind {bytes rest : Bytes} {messages : List Message} (hwhole : IsWhole bytes)
      (h : Leads (bytes.drop (Bytes.align (bytes.uint32At 0).toNat)) messages rest) :
      Leads bytes
        (⟨readAt bytes 0, (bytes.take (bytes.uint32At 0).toNat).drop size⟩ :: messages) rest

/-! ## The front -/

private theorem front_of_short (h : bytes.length < size) : front bytes = .finished := by
  rw [front, if_pos h]

private theorem front_of_not_whole (hsize : size ≤ bytes.length) (h : ¬IsWhole bytes) :
    front bytes = .faulty (bytes.uint32At 0) := by
  have hfaulty : (bytes.uint32At 0).toNat < size ∨ bytes.length < (bytes.uint32At 0).toNat := by
    unfold IsWhole at h
    omega
  rw [front, if_neg (Nat.not_lt_of_le hsize)]
  exact if_pos hfaulty

private theorem front_of_whole (h : IsWhole bytes) :
    front bytes =
      .message ⟨readAt bytes 0, (bytes.take (bytes.uint32At 0).toNat).drop size⟩
        (bytes.drop (Bytes.align (bytes.uint32At 0).toNat)) := by
  obtain ⟨hsize, hroom⟩ := h
  rw [front, if_neg (Nat.not_lt_of_le (Nat.le_trans hsize hroom))]
  exact if_neg (not_or.2 ⟨Nat.not_lt_of_le hsize, Nat.not_lt_of_le hroom⟩)

/-! ## All that is yielded -/

theorem yielded_of_front_finished (h : front bytes = .finished) : yielded bytes = [] := by
  rw [yielded, read_of_finished h]
  rfl

theorem yielded_nil : yielded [] = [] :=
  yielded_of_front_finished rfl

theorem yielded_of_front_faulty {length : UInt32} (h : front bytes = .faulty length) :
    yielded bytes = [.error (Reading.faultError length)] := by
  rw [yielded, read_of_faulty h]
  rfl

theorem yielded_of_front_message (h : front bytes = .message m rest) :
    yielded bytes = .ok m :: yielded rest := by
  rw [yielded, read_of_message h]
  rfl

theorem nth_eq (n : Nat) (bytes : Bytes) : nth n bytes = (yielded bytes)[n]? := by
  induction n generalizing bytes with
  | zero =>
      rw [nth, next]
      cases hfront : front bytes with
      | finished => rw [yielded_of_front_finished hfront]; rfl
      | faulty length => rw [yielded_of_front_faulty hfront]; rfl
      | message m rest => rw [yielded_of_front_message hfront]; rfl
  | succ n ih =>
      rw [nth, ih, next]
      cases hfront : front bytes with
      | finished => simp only [yielded_of_front_finished hfront, List.getElem?_nil]
      | faulty length =>
          simp only [yielded_of_front_faulty hfront, yielded_nil, List.getElem?_cons_succ]
      | message m rest => simp only [yielded_of_front_message hfront, List.getElem?_cons_succ]

theorem yielded_of_leads (h : Leads bytes messages rest) :
    yielded bytes = messages.map .ok ++ yielded rest := by
  induction h with
  | here bytes => rfl
  | behind hwhole _ ih =>
      rw [yielded_of_front_message (front_of_whole hwhole), ih, List.map_cons, List.cons_append]

theorem yielded_of_short (h : Leads bytes messages rest) (hshort : rest.length < size) :
    yielded bytes = messages.map .ok := by
  rw [yielded_of_leads h, yielded_of_front_finished (front_of_short hshort), List.append_nil]

theorem yielded_of_faulty (h : Leads bytes messages rest) (hsize : size ≤ rest.length)
    (hfaulty : ¬IsWhole rest) :
    yielded bytes =
      messages.map .ok ++ [.error (Reading.faultError (rest.uint32At 0))] := by
  rw [yielded_of_leads h, yielded_of_front_faulty (front_of_not_whole hsize hfaulty)]

end Message

namespace Script.Record

/-- The message says what the record says, under the number of the request unless the record has a
number of its own. -/
structure ReadsAs (seq : UInt32) (r : Record) (m : Message) : Prop where
  type_eq : m.header.type = r.type
  flags_eq : m.header.flags = r.flags
  seq_eq : m.header.seq = r.seq.getD seq
  payload_eq : m.payload = r.payload

theorem forall₂_message (seq : UInt32) (records : List Record) :
    List.Forall₂ (ReadsAs seq) records (records.map (·.message seq)) := by
  induction records with
  | nil => exact .nil
  | cons r records ih => exact .cons ⟨rfl, rfl, rfl, rfl⟩ ih

end Script.Record

namespace Message

/-- A reader yields records as they were laid out, and then what it yields for the bytes behind them
alone.  At the first length in any bytes that does not count the header or goes beyond the end it
yields the one error, and where a header has no room it stops without; after that it yields nothing,
however often it is asked. -/
theorem reader_yields_records {records : List Script.Record} (hfits : ∀ r ∈ records, r.Fits)
    (seq : UInt32) :
    (∃ messages, List.Forall₂ (Script.Record.ReadsAs seq) records messages ∧
      ∀ tail, yielded (records.flatMap (·.encode seq) ++ tail) =
        messages.map .ok ++ yielded tail) ∧
    (∀ {bytes rest : Bytes} {messages : List Message}, Leads bytes messages rest →
      (MessageHeader.size ≤ rest.length →
        (rest.uint32At 0).toNat < MessageHeader.size ∨ rest.length < (rest.uint32At 0).toNat →
        yielded bytes = messages.map .ok ++
          [.error (.invalidMessage s!"invalid message length: {rest.uint32At 0}")]) ∧
      (rest.length < MessageHeader.size → yielded bytes = messages.map .ok)) ∧
    ∀ n bytes, nth n bytes = (yielded bytes)[n]? := by
  refine ⟨⟨_, Script.Record.forall₂_message seq records, ?_⟩, ?_, nth_eq⟩
  · intro tail
    rw [yielded, Script.Record.read_encode_append hfits, List.map_append, List.append_assoc]
    rfl
  · intro bytes rest messages hleads
    refine ⟨fun hsize hfaulty => ?_, yielded_of_short hleads⟩
    have hnot : ¬IsWhole rest := by
      unfold IsWhole
      omega
    exact yielded_of_faulty hleads hsize hnot

def oddRecords : List Script.Record :=
  [{ type := .newLink, flags := .multi, payload := [1, 2, 3] },
    { Script.Record.done with seq := some 7 }]

/-- Behind the records lies a header whose length does not even count itself. -/
theorem reader_yields_oddRecords :
    (∀ r ∈ oddRecords, r.Fits) ∧
    (∃ messages, List.Forall₂ (Script.Record.ReadsAs 9) oddRecords messages ∧
      yielded (oddRecords.flatMap (·.encode 9) ++ Bytes.zeros 16) =
        messages.map .ok ++ [.error (.invalidMessage "invalid message length: 0")]) ∧
    nth 3 (oddRecords.flatMap (·.encode 9) ++ Bytes.zeros 16) = none := by
  have hfits : ∀ r ∈ oddRecords, r.Fits := by decide
  obtain ⟨⟨messages, hread, hyielded⟩, hends, hnth⟩ := reader_yields_records hfits 9
  obtain ⟨hfaulty, -⟩ := hends (.here (Bytes.zeros 16))
  have htail := hfaulty (by decide) (by decide)
  have hall := hyielded (Bytes.zeros 16)
  rw [htail] at hall
  refine ⟨hfits, ⟨messages, hread, hall⟩, ?_⟩
  have hcount : messages.length = 2 := hread.length_eq.symm
  rw [hnth, hall]
  simp [hcount]

end Message

end RouteControl
