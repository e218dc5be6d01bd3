import RouteControl.Proofs.Response.Reading
import RouteControl.Proofs.Response.Verdict

/-!
# Listings

Whether the messages of a response list entries of one kind (`Lists`): the first message says that
they do, and no error message among them reports a failure, wherever it stands.  Since the end of
several messages has nothing behind it, reading the payloads takes all messages into account
(`payloadsIn_of_unfailed`, `payloadsIn_of_failed`).
-/

namespace RouteControl

/-- The messages end at the end of several messages, if there is one. -/
def Message.DoneLast (messages : List Message) : Prop :=
  messages.Pairwise fun m _ => m.kind ≠ .done

namespace Response

variable {expected : MessageKind} {messages : List Message}

/-- An error message that is whole and has the code of success. -/
def Acknowledges (m : Message) : Prop :=
  ErrorReport.size ≤ m.payload.length ∧ codeOf m = 0

instance (m : Message) : Decidable (Acknowledges m) := by
  unfold Acknowledges
  infer_instance

/-- Every error message is an acknowledgement. -/
def Unfailed (messages : List Message) : Prop :=
  ∀ m ∈ messages, m.kind = .error → Acknowledges m

instance (messages : List Message) : Decidable (Unfailed messages) := by
  unfold Unfailed
  infer_instance

/-- The messages list entries of this kind. -/
structure Lists (expected : MessageKind) (messages : List Message) : Prop where
  led : ∃ m ∈ messages.head?, m.kind = .error ∨ m.kind = .done ∨ m.kind = expected
  unfailed : Unfailed messages

/-- The messages of this kind; error messages and the end of several messages are no entries. -/
def entriesOf (expected : MessageKind) (messages : List Message) : List Message :=
  messages.filter fun m => m.kind = expected ∧ m.kind ≠ .error ∧ m.kind ≠ .done

theorem filter_entriesOf (herror : expected ≠ .error) (hdone : expected ≠ .done)
    (p : Message → Prop) [DecidablePred p] :
    (entriesOf expected messages).filter (p ·) =
      messages.filter fun m => m.kind = expected ∧ p m := by
  rw [entriesOf, List.filter_filter]
  refine List.filter_congr fun m _ => ?_
  by_cases hkind : m.kind = expected <;> simp [hkind, herror, hdone]

theorem entriesOf_eq_nil (h : expected = .error ∨ expected = .done) :
    entriesOf expected messages = [] := by
  refine List.filter_eq_nil_iff.2 fun m _ => ?_
  rcases h with rfl | rfl <;> simp +contextual

theorem checkReport_of_acknowledges {m : Message} (h : Acknowledges m) :
    checkReport m = .ok () := by
  rw [checkReport_of_whole h.1, if_pos h.2]

theorem checkReport_of_not_acknowledges {m : Message} (h : ¬Acknowledges m) :
    ∃ e, checkReport m = .error e := by
  by_cases hwhole : ErrorReport.size ≤ m.payload.length
  · have hcode : codeOf m ≠ 0 := fun hcode => h ⟨hwhole, hcode⟩
    rw [checkReport_of_whole hwhole, if_neg hcode]
    exact ⟨_, rfl⟩
  · exact ⟨_, checkReport_of_short (Nat.lt_of_not_le hwhole)⟩

/-! ## Reading the payloads -/

theorem payloadsIn_cons_of_report {m : Message} (h : m.kind = .error) (fault : Option UInt32)
    (ms : List Message) :
    payloadsIn expected fault (m :: ms) =
      (checkReport m).bind fun _ => payloadsIn expected fault ms := by
  rw [payloadsIn, h]
  rfl

theorem payloadsIn_cons_of_entry {m : Message} (herror : m.kind ≠ .error) (hdone : m.kind ≠ .done)
    (fault : Option UInt32) (ms : List Message) :
    payloadsIn expected fault (m :: ms) =
      (payloadsIn expected fault ms).map
        fun payloads => if m.kind = expected then m.payload :: payloads else payloads := by
  rw [payloadsIn]
  split
  · exact absurd ‹_› herror
  · exact absurd ‹_› hdone
  · cases payloadsIn expected fault ms <;> rfl

theorem payloadsIn_of_unfailed (hlast : Message.DoneLast messages) (h : Unfailed messages) :
    payloadsIn expected none messages =
      .ok ((entriesOf expected messages).map Message.payload) := by
  induction messages with
  | nil => rfl
  | cons m ms ih =>
      obtain ⟨hbehind, hlast⟩ := List.pairwise_cons.1 hlast
      obtain ⟨hm, hms⟩ := List.forall_mem_cons.1 h
      have hrest := ih hlast hms
      by_cases herror : m.kind = .error
      · rw [payloadsIn_cons_of_report herror, checkReport_of_acknowledges (hm herror)]
        simp [Except.bind, hrest, entriesOf, herror]
      by_cases hdone : m.kind = .done
      · obtain rfl : ms = [] := List.eq_nil_iff_forall_not_mem.2 fun b hb => hbehind b hb hdone
        simp [payloadsIn, entriesOf, hdone]
      rw [payloadsIn_cons_of_entry herror hdone, hrest]
      by_cases hkind : m.kind = expected <;> simp_all [Except.map, entriesOf]

theorem payloadsIn_of_failed (hlast : Message.DoneLast messages) (h : ¬Unfailed messages) :
    ∃ e, payloadsIn expected none messages = .error e := by
  induction messages with
  | nil => exact absurd (by simp [Unfailed]) h
  | cons m ms ih =>
      obtain ⟨hbehind, hlast⟩ := List.pairwise_cons.1 hlast
      by_cases herror : m.kind = .error
      · rw [payloadsIn_cons_of_report herror]
        by_cases hm : Acknowledges m
        · rw [checkReport_of_acknowledges hm]
          exact ih hlast fun hms => h (List.forall_mem_cons.2 ⟨fun _ => hm, hms⟩)
        · obtain ⟨e, he⟩ := checkReport_of_not_acknowledges hm
          exact ⟨e, by rw [he]; rfl⟩
      have hms : ¬Unfailed ms := fun hms =>
        h (List.forall_mem_cons.2 ⟨fun hm => absurd hm herror, hms⟩)
      by_cases hdone : m.kind = .done
      · obtain rfl : ms = [] := List.eq_nil_iff_forall_not_mem.2 fun b hb => hbehind b hb hdone
        exact absurd (by simp [Unfailed]) hms
      obtain ⟨e, he⟩ := ih hlast hms
      exact ⟨e, by rw [payloadsIn_cons_of_entry herror hdone, he]; rfl⟩

theorem leadingKind?_ofMessages (messages : List Message) :
    (ofMessages messages).leadingKind? = messages.head?.map Message.kind := by
  cases messages with
  | nil => rfl
  | cons m ms =>
      have hfront : (ofMessages (m :: ms)).bytes = m.header.bytes ++
          (m.payload ++ (Bytes.zeros (Bytes.align (m.header.bytes ++ m.payload).length -
            (m.header.bytes ++ m.payload).length) ++ (ofMessages ms).bytes)) := by
        simp only [ofMessages, List.flatMap_cons, Message.bytes, Bytes.padded, List.append_assoc]
      rw [leadingKind?, hfront, MessageHeader.decode_append]
      rfl

theorem mayLead_iff : mayLead expected (messages.head?.map Message.kind) ↔
    ∃ m ∈ messages.head?, m.kind = .error ∨ m.kind = .done ∨ m.kind = expected := by
  cases messages <;> simp [mayLead]

variable (hwell : ∀ m ∈ messages, m.WellFormed) (hlast : Message.DoneLast messages)
include hwell hlast

theorem dumpPayloads_of_lists (h : Lists expected messages) :
    (ofMessages messages).dumpPayloads expected =
      .ok ((entriesOf expected messages).map Message.payload) := by
  rw [dumpPayloads, leadingKind?_ofMessages, if_pos (mayLead_iff.2 h.led),
    read_ofMessages hwell]
  exact payloadsIn_of_unfailed hlast h.unfailed

theorem dumpPayloads_of_not_lists (h : ¬Lists expected messages) :
    ∃ e, (ofMessages messages).dumpPayloads expected = .error e := by
  rw [dumpPayloads, leadingKind?_ofMessages, read_ofMessages hwell]
  split
  · rename_i hled
    exact payloadsIn_of_failed hlast fun hunfailed => h ⟨mayLead_iff.1 hled, hunfailed⟩
  · exact ⟨_, rfl⟩

end Response

end RouteControl
