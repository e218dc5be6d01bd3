import Mathlib.Algebra.GroupWithZero.Nat
import RouteControl.Proofs.Message.Framing
import RouteControl.Response

/-!
# Reading responses

A response made of messages that tell their own lengths is read as these very messages
(`read_ofMessages`) and is as long as they are on the grid (`length_ofMessages`).  Its leading code
is that of its first message, and only where this is a whole error message
(`leadingError?_eq_some_iff`).
-/

namespace RouteControl.Response

/-- The first message is an error message, long enough for a report, with this code. -/
def LedBy (code : Int32) : List Message → Prop
  | [] => False
  | m :: _ =>
    m.header.type = .error ∧ ErrorReport.size ≤ m.payload.length ∧
      (m.payload.uint32At 0).toInt32 = code

instance (code : Int32) (messages : List Message) : Decidable (LedBy code messages) := by
  cases messages <;> unfold LedBy <;> infer_instance

theorem read_ofMessages {messages : List Message} (h : ∀ m ∈ messages, m.WellFormed) :
    (ofMessages messages).read = ⟨messages, none⟩ :=
  Message.read_flatMap h

theorem length_ofMessages {messages : List Message} (h : ∀ m ∈ messages, m.WellFormed) :
    (ofMessages messages).bytes.length =
      (messages.map fun m => Bytes.align m.header.length.toNat).sum := by
  rw [ofMessages, List.length_flatMap]
  exact congrArg List.sum (List.map_congr_left fun m hm => (h m hm).length_bytes)

theorem leadingError?_eq_some_iff {messages : List Message} (h : ∀ m ∈ messages, m.WellFormed)
    (code : Int32) :
    (ofMessages messages).leadingError? = some code ↔ LedBy code messages := by
  rw [leadingError?, read_ofMessages h]
  cases messages with
  | nil => simp [LedBy]
  | cons m ms =>
      simp only [LedBy, MessageHeader.isError, decide_eq_true_eq]
      by_cases htype : m.header.type = .error
      · by_cases hsize : m.payload.length < ErrorReport.size
        · simp [htype, ErrorReport.decode, hsize, Nat.not_le_of_lt hsize]
        · simp [htype, ErrorReport.decode, hsize, Nat.le_of_not_lt hsize]
      · simp [htype]

end RouteControl.Response
