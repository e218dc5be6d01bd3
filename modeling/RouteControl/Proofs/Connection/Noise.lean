import RouteControl.Proofs.Connection.Retry

/-!
# Noise

Replies may hold more than the kernel's answer: datagrams from elsewhere, and messages under
numbers that nobody waits for.  `Noisy` relates replies to the same replies with such noise added
anywhere.  Receiving over both comes to the same and leaves replies that are related again
(`gather_noisy`), which is what every further transmission needs (`run_transmit_noisy`).
-/

namespace RouteControl

variable {seq stamp : UInt32}

namespace Script

/-- A message under an explicit number that is not this one. -/
def Record.Stale (seq : UInt32) (r : Record) : Prop :=
  r.Fits ∧ ∃ number, r.seq = some number ∧ number ≠ seq

def Reply.IsForeign : Reply → Prop
  | .records sender _ | .raw sender _ => sender ≠ 0
  | .failure _ | .overflow .. => False

/-- The first records with stale ones added, each behind records whose headers tell their
lengths. -/
inductive Interspersed (seq : UInt32) : List Record → List Record → Prop where
  | same (records : List Record) : Interspersed seq records records
  | keep {r : Record} {quiet noisy : List Record} (hfits : r.Fits)
      (h : Interspersed seq quiet noisy) : Interspersed seq (r :: quiet) (r :: noisy)
  | stale {r : Record} {quiet noisy : List Record} (hstale : r.Stale seq)
      (h : Interspersed seq quiet noisy) : Interspersed seq quiet (r :: noisy)

end Script

/-- The first bytes with whole messages under other numbers added between their messages. -/
inductive Message.Interspersed (seq : UInt32) : Bytes → Bytes → Prop where
  | same (bytes : Bytes) : Interspersed seq bytes bytes
  | keep {m : Message} {bytes quiet noisy : Bytes} (hframed : Framed bytes m)
      (h : Interspersed seq quiet noisy) : Interspersed seq (bytes ++ quiet) (bytes ++ noisy)
  | stale {m : Message} {bytes quiet noisy : Bytes} (hframed : Framed bytes m)
      (hseq : m.header.seq ≠ seq) (h : Interspersed seq quiet noisy) :
      Interspersed seq quiet (bytes ++ noisy)

/-- The first replies with noise added: datagrams from elsewhere, datagrams of stale messages, and
stale messages inside the kernel's datagrams. -/
inductive Connection.Noisy (seq : UInt32) : List Script.Reply → List Script.Reply → Prop where
  | nil : Noisy seq [] []
  | keep {quiet noisy : List Script.Reply} (reply : Script.Reply) (h : Noisy seq quiet noisy) :
      Noisy seq (reply :: quiet) (reply :: noisy)
  | within {quiet noisy : List Script.Reply} {first second : List Script.Record}
      (hrecords : Script.Interspersed seq first second) (h : Noisy seq quiet noisy) :
      Noisy seq (.records 0 first :: quiet) (.records 0 second :: noisy)
  | withinRaw {quiet noisy : List Script.Reply} {first second : Bytes}
      (hbytes : Message.Interspersed seq first second) (h : Noisy seq quiet noisy) :
      Noisy seq (.raw 0 first :: quiet) (.raw 0 second :: noisy)
  | between {quiet noisy : List Script.Reply} {records : List Script.Record}
      (hrecords : ∀ r ∈ records, r.Stale seq) (h : Noisy seq quiet noisy) :
      Noisy seq quiet (.records 0 records :: noisy)
  | foreign {quiet noisy : List Script.Reply} {reply : Script.Reply} (hreply : reply.IsForeign)
      (h : Noisy seq quiet noisy) : Noisy seq quiet (reply :: noisy)

namespace Connection

variable {c : Connection} {quiet noisy : List Script.Reply}

/-! ## Noise inside a datagram -/

theorem answering_interspersed {first second : Bytes}
    (h : Message.Interspersed seq first second) :
    answering seq (Message.read second).messages = answering seq (Message.read first).messages := by
  induction h with
  | same => rfl
  | keep hframed _ ih =>
      rw [Message.read_of_message (hframed.front_append _),
        Message.read_of_message (hframed.front_append _)]
      simp only [Message.Reading.cons, answering, ih]
  | stale hframed hseq _ ih =>
      rw [Message.read_of_message (hframed.front_append _), ← ih]
      simp only [Message.Reading.cons, answering, if_pos hseq]

theorem interspersed_encode {first second : List Script.Record}
    (h : Script.Interspersed seq first second) (stamp : UInt32) :
    Message.Interspersed seq (first.flatMap (·.encode stamp))
      (second.flatMap (·.encode stamp)) := by
  induction h with
  | same => exact .same _
  | keep hfits _ ih =>
      exact .keep (Message.framed_bytes (Script.Record.wellFormed_message hfits stamp)) ih
  | @stale r _ _ hstale _ ih =>
      obtain ⟨hfits, number, hnumber, hne⟩ := hstale
      have hseq : (r.message stamp).header.seq ≠ seq := by
        simpa only [Script.Record.message, hnumber, Option.getD_some] using hne
      exact .stale (Message.framed_bytes (Script.Record.wellFormed_message hfits stamp)) hseq ih

private theorem interspersed_nil {records : List Script.Record} (h : ∀ r ∈ records, r.Stale seq) :
    Script.Interspersed seq [] records := by
  induction records with
  | nil => exact .same []
  | cons r rest ih =>
      obtain ⟨hr, hrest⟩ := List.forall_mem_cons.1 h
      exact .stale hr (ih hrest)

theorem answering_records {first second : List Script.Record}
    (h : Script.Interspersed seq first second) (stamp : UInt32) :
    answering seq ((Script.Reply.records 0 second).messages stamp) =
      answering seq ((Script.Reply.records 0 first).messages stamp) :=
  answering_interspersed (interspersed_encode h stamp)

private theorem messages_of_isForeign {reply : Script.Reply} (h : reply.IsForeign)
    (stamp : UInt32) :
    reply.isDatagram ∧ reply.messages stamp = [] := by
  cases reply with
  | records sender records =>
      exact ⟨rfl, Script.Reply.messages_foreign h records stamp⟩
  | raw sender bytes =>
      have hsender : sender ≠ 0 := h
      simp [Script.Reply.isDatagram, Script.Reply.messages, Script.Reply.receive,
        Datagram.isFromKernel, hsender]
  | failure | overflow => exact h.elim

/-! ## Receiving over noise -/

private theorem gather_congr {first second : Script.Reply} (hfirst : first.isDatagram)
    (hsecond : second.isDatagram)
    (hanswering : answering seq (second.messages stamp) = answering seq (first.messages stamp))
    (hrest : Noisy seq quiet noisy)
    (h : ∃ left, gather seq stamp noisy = ((gather seq stamp quiet).1, left) ∧
      Noisy seq (gather seq stamp quiet).2 left) :
    ∃ left, gather seq stamp (second :: noisy) = ((gather seq stamp (first :: quiet)).1, left) ∧
      Noisy seq (gather seq stamp (first :: quiet)).2 left := by
  obtain ⟨left, hgather, hleft⟩ := h
  rw [gather_cons hfirst, gather_cons hsecond, hanswering, hgather]
  by_cases hcomplete : (answering seq (first.messages stamp)).2
  · rw [if_pos hcomplete, if_pos hcomplete]
    exact ⟨noisy, rfl, hrest⟩
  · rw [if_neg hcomplete, if_neg hcomplete]
    exact ⟨left, rfl, hleft⟩

theorem gather_idle {reply : Script.Reply} (hreply : reply.isDatagram)
    (hanswering : answering seq (reply.messages stamp) = ([], false)) (rest : List Script.Reply) :
    gather seq stamp (reply :: rest) = gather seq stamp rest := by
  rw [gather_cons hreply, hanswering]
  simp

theorem gather_noisy (h : Noisy seq quiet noisy) (stamp : UInt32) :
    ∃ left, gather seq stamp noisy = ((gather seq stamp quiet).1, left) ∧
      Noisy seq (gather seq stamp quiet).2 left := by
  induction h with
  | nil => exact ⟨[], rfl, .nil⟩
  | keep reply hrest ih =>
      by_cases hreply : reply.isDatagram
      · exact gather_congr hreply hreply rfl hrest ih
      · cases reply with
        | records | raw => exact absurd rfl hreply
        | failure | overflow =>
            rw [gather_of_failure rfl, gather_of_failure rfl]
            exact ⟨_, rfl, hrest⟩
  | within hrecords hrest ih =>
      exact gather_congr rfl rfl (answering_records hrecords stamp) hrest ih
  | withinRaw hbytes hrest ih =>
      exact gather_congr rfl rfl (answering_interspersed hbytes) hrest ih
  | between hrecords _ ih =>
      have hempty : (Script.Reply.records 0 []).messages stamp = [] :=
        Script.Reply.messages_records (by simp) stamp
      have hanswering := answering_records (interspersed_nil hrecords) stamp
      rw [hempty] at hanswering
      rw [gather_idle rfl hanswering]
      exact ih
  | foreign hreply _ ih =>
      obtain ⟨hdatagram, hmessages⟩ := messages_of_isForeign hreply stamp
      rw [gather_idle hdatagram (by rw [hmessages]; rfl)]
      exact ih

/-! ## Transmissions over noise -/

theorem run_transmit_noisy (message : Bytes) (attempts : Nat)
    (h : Noisy seq c.kernel.replies noisy) :
    ∃ left, (c.withReplies noisy).run (transmit message seq attempts) =
        ((c.run (transmit message seq attempts)).1,
          (c.run (transmit message seq attempts)).2.withReplies left) ∧
      Noisy seq (c.run (transmit message seq attempts)).2.kernel.replies left := by
  induction attempts generalizing c noisy with
  | zero => exact ⟨noisy, rfl, h⟩
  | succ attempts ih =>
      cases hfailure : c.kernel.sendFailure with
      | some kind =>
          have hnoisy : (c.withReplies noisy).kernel.sendFailure = some kind := hfailure
          rw [run_transmit_of_refusal hfailure, run_transmit_of_refusal hnoisy]
          exact ⟨noisy, rfl, h⟩
      | none =>
          have hready : (c.withReplies noisy).kernel.sendFailure = none := hfailure
          have hgathered : ∃ noise, (c.withReplies noisy).gathered seq message =
              ((c.gathered seq message).1, noise) ∧ Noisy seq (c.gathered seq message).2 noise :=
            gather_noisy h (c.kernel.stamp message)
          rcases hgather : c.gathered seq message with ⟨g, left⟩
          rw [hgather] at hgathered
          obtain ⟨noise, hnoise, hleft⟩ := hgathered
          cases g with
          | complete messages =>
              rw [run_transmit_of_complete hfailure hgather,
                run_transmit_of_complete hready hnoise]
              by_cases hbusy : (Response.ofMessages messages).leadingError? = some busyCode
              · rw [if_pos hbusy, if_pos hbusy]
                exact ih (c := (c.sending message).withReplies left) hleft
              · rw [if_neg hbusy, if_neg hbusy]
                exact ⟨noise, rfl, hleft⟩
          | failed e =>
              rw [run_transmit_of_failed hfailure hgather, run_transmit_of_failed hready hnoise]
              exact ⟨noise, rfl, hleft⟩
          | silence =>
              rw [run_transmit_of_silence hfailure hgather, run_transmit_of_silence hready hnoise]
              exact ⟨noise, rfl, hleft⟩

/-- Noise among the replies changes neither what a request returns nor what is sent for it; all
else that it does to the connection is the same too, but for the noise that is left. -/
theorem request_ignores_noise (c : Connection) (d : Draft) (noisy : List Script.Reply)
    (h : Noisy c.nextSeq c.kernel.replies noisy) :
    ((c.withReplies noisy).run (request d)).1 = (c.run (request d)).1 ∧
    ((c.withReplies noisy).run (request d)).2.kernel.sent =
      (c.run (request d)).2.kernel.sent ∧
    ∃ left, ((c.withReplies noisy).run (request d)).2 =
        (c.run (request d)).2.withReplies left ∧
      Noisy c.nextSeq (c.run (request d)).2.kernel.replies left := by
  obtain ⟨left, hrun, hleft⟩ :=
    run_transmit_noisy (c.numbered d) (c := c.numbering) c.settings.transmissions h
  have hnoisy : (c.withReplies noisy).run (request d) =
      ((c.run (request d)).1, (c.run (request d)).2.withReplies left) := hrun
  rw [hnoisy]
  exact ⟨rfl, rfl, left, rfl, hleft⟩

/-- The answers of `busyOnce` among a datagram from elsewhere, a datagram of a stale end, and stale
messages that look like a busy kernel and like an acknowledgement. -/
def noisyReplies : List Script.Reply :=
  [.records 7 [.ack 0], .records 0 [{ Script.Record.done with seq := some 9 }],
    .records 0 [{ Script.Record.ack (-16) with seq := some 9 }, .ack (-16)],
    .records 0 [{ Script.Record.ack 0 with seq := some 2 }, .ack 0]]

theorem request_noisyReplies :
    ((busyOnce.withReplies noisyReplies).run (request (.new .newRule .request 1024))).1 =
        .ok (.ofMessages [(Script.Record.ack 0).message 1]) ∧
      ((busyOnce.withReplies noisyReplies).run
          (request (.new .newRule .request 1024))).2.kernel.sent =
        List.replicate 2 (busyOnce.numbered (.new .newRule .request 1024)) := by
  have hstale : ∀ r : Script.Record, r.Fits → ∀ number, number ≠ 1 →
      ({ r with seq := some number } : Script.Record).Stale 1 :=
    fun r hfits number hnumber => ⟨hfits, number, rfl, hnumber⟩
  have hbusy : Script.Interspersed 1 [.ack (-16)]
      [{ Script.Record.ack (-16) with seq := some 9 }, .ack (-16)] :=
    .stale (hstale _ (by decide) 9 (by decide)) (.same _)
  have hack : Script.Interspersed 1 [.ack 0]
      [{ Script.Record.ack 0 with seq := some 2 }, .ack 0] :=
    .stale (hstale _ (by decide) 2 (by decide)) (.same _)
  have hdone := List.forall_mem_singleton.2 (hstale .done (by decide) 9 (by decide))
  have hforeign : (Script.Reply.records 7 [.ack 0]).IsForeign := by
    intro h
    exact absurd h (by decide)
  have hnoisy : Noisy 1 busyOnce.kernel.replies noisyReplies :=
    .foreign hforeign (.between hdone (.within hbusy (.within hack .nil)))
  obtain ⟨hresult, hsent, -⟩ :=
    request_ignores_noise busyOnce (.new .newRule .request 1024) noisyReplies hnoisy
  obtain ⟨hquiet, hquietSent, -⟩ :=
    (course_iff (Draft.wellFormed_new ..) rfl).1 course_busyOnce
  exact ⟨hresult.trans hquiet, hsent.trans hquietSent⟩

end Connection

end RouteControl
