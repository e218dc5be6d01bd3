import RouteControl.Proofs.Connection.Reassembly

/-!
# Scripted records

A record that fits its length field is laid out as a message that tells its own length, so that a
scripted datagram is read as its records, whatever bytes follow (`read_encode_append`), and a
scripted reply of the kernel brings just these messages (`messages_records`).
-/

namespace RouteControl

namespace Script

namespace Record

def Fits (r : Record) : Prop := MessageHeader.size + r.payload.length < UInt32.size

instance (r : Record) : Decidable r.Fits := by
  unfold Fits
  infer_instance

theorem wellFormed_message {r : Record} (h : r.Fits) (seq : UInt32) :
    (r.message seq).WellFormed :=
  UInt32.toNat_ofNat_of_lt' h

theorem read_encode_append {records : List Record} (h : ∀ r ∈ records, r.Fits) (seq : UInt32)
    (tail : Bytes) :
    Message.read (records.flatMap (·.encode seq) ++ tail) =
      ⟨records.map (·.message seq) ++ (Message.read tail).messages,
        (Message.read tail).fault⟩ := by
  have hmessages : ∀ m ∈ records.map (·.message seq), m.WellFormed := by
    intro m hm
    obtain ⟨r, hr, rfl⟩ := List.mem_map.1 hm
    exact wellFormed_message (h r hr) seq
  have hencode : records.flatMap (·.encode seq) =
      (records.map (·.message seq)).flatMap Message.bytes := by
    rw [List.flatMap_map]
    rfl
  rw [hencode, Message.read_flatMap_append hmessages]

end Record

theorem Reply.messages_records {records : List Record} (h : ∀ r ∈ records, r.Fits) (seq : UInt32) :
    (Reply.records 0 records).messages seq = records.map (·.message seq) := by
  have hread := Record.read_encode_append h seq []
  rw [List.append_nil, Message.read_nil, List.append_nil] at hread
  simp only [messages, receive, Datagram.isFromKernel, hread, decide_true, if_true]

theorem Reply.messages_foreign {sender : UInt32} (h : sender ≠ 0) (records : List Record)
    (seq : UInt32) : (Reply.records sender records).messages seq = [] := by
  simp [messages, receive, Datagram.isFromKernel, h]

end Script

theorem Connection.completes_record {r : Script.Record} {seq : UInt32} (hfits : r.Fits)
    (hseq : r.seq = none) (hfinal : (r.message seq).header.isFinal) :
    Completes seq [.records 0 [r]] [r.message seq] := by
  have hanswers : answers seq [.records 0 [r]] = [r.message seq] := by
    have hnumber : (r.message seq).header.seq = seq := by
      simp only [Script.Record.message, hseq, Option.getD_none]
    rw [answers_singleton, Script.Reply.messages_records (by simpa using hfits)]
    simp [hnumber]
  have hterminated : Message.Terminated [r.message seq] := ⟨[], _, rfl, by simp, hfinal⟩
  exact completes_append pending_nil rfl (hanswers ▸ List.prefix_rfl) hterminated

end RouteControl
