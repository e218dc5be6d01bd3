import RouteControl.Proofs.Connection.Completeness

/-!
# Fragmentation

The same messages may come in one datagram, in one datagram each, or in any other parts, with empty
datagrams among them (`Fragments`).  Where the kernel is not busy, one transmission is enough, and
its course is told by the messages alone (`course_of_terminated`, `course_of_unfinished`); so the
parts do not matter (`request_ignores_fragmentation`).
-/

namespace RouteControl.Connection

variable {seq : UInt32} {replies : List Script.Reply} {arrived messages : List Message}

/-- The replies are datagrams of the kernel that bring these messages, each datagram whole ones. -/
inductive Fragments (seq : UInt32) : List Script.Reply → List Message → Prop where
  | nil : Fragments seq [] []
  | datagram {reply : Script.Reply} {bytes : Bytes} {part : List Message}
      {replies : List Script.Reply} {rest : List Message}
      (hreceive : reply.receive seq = .ok ⟨0, bytes⟩) (hread : Message.read bytes = ⟨part, none⟩)
      (h : Fragments seq replies rest) : Fragments seq (reply :: replies) (part ++ rest)

namespace Fragments

theorem of_records {parts : List (List Script.Record)} (h : ∀ r ∈ parts.flatten, r.Fits)
    (seq : UInt32) :
    Fragments seq (parts.map (.records 0)) (parts.flatten.map (·.message seq)) := by
  induction parts with
  | nil => exact .nil
  | cons part parts ih =>
      obtain ⟨hpart, hparts⟩ := List.forall_mem_append.1 h
      have hread := Script.Record.read_encode_append hpart seq []
      rw [List.append_nil, Message.read_nil, List.append_nil] at hread
      rw [List.map_cons, List.flatten_cons, List.map_append]
      exact .datagram rfl hread (ih hparts)

theorem of_messages {parts : List (List Message)} (h : ∀ m ∈ parts.flatten, m.WellFormed)
    (seq : UInt32) :
    Fragments seq (parts.map fun part => .raw 0 (part.flatMap Message.bytes)) parts.flatten := by
  induction parts with
  | nil => exact .nil
  | cons part parts ih =>
      obtain ⟨hpart, hparts⟩ := List.forall_mem_append.1 h
      exact .datagram rfl (Message.read_flatMap hpart) (ih hparts)

theorem isDatagram (h : Fragments seq replies arrived) : ∀ reply ∈ replies, reply.isDatagram := by
  induction h with
  | nil => simp
  | datagram hreceive _ _ ih =>
      exact List.forall_mem_cons.2 ⟨Script.Reply.isDatagram_of_receive hreceive, ih⟩

theorem flatMap_messages (h : Fragments seq replies arrived) :
    replies.flatMap (·.messages seq) = arrived := by
  induction h with
  | nil => rfl
  | @datagram reply _ part _ _ hreceive hread _ ih =>
      have hpart : reply.messages seq = part := by
        simp only [Script.Reply.messages, hreceive, hread, Datagram.isFromKernel, decide_true,
          if_true]
      rw [List.flatMap_cons, ih, hpart]

theorem answers_eq (h : Fragments seq replies arrived) :
    answers seq replies = arrived.filter (·.header.seq = seq) := by
  rw [answers, h.flatMap_messages]

end Fragments

/-! ## One transmission -/

/-- Where no message under the number is final, waiting is given up. -/
theorem course_of_unfinished (h : Fragments seq replies arrived)
    (hopen : ∀ m ∈ arrived.filter (·.header.seq = seq), ¬m.header.isFinal) (s : Settings) :
    Course s seq replies (.error (.timeout s.timeout)) 1 [] := by
  have hpending : Pending seq replies := ⟨h.isDatagram, h.answers_eq ▸ hopen⟩
  exact .silent busyRuns_nil s.transmissions_pos hpending rfl

/-- The messages up to the first final one are the response, wherever datagrams end. -/
theorem course_of_terminated (h : Fragments seq replies arrived)
    (hterminated : Message.Terminated messages)
    (hfront : messages <+: arrived.filter (·.header.seq = seq))
    (hled : ¬Response.LedBy busyCode messages) (s : Settings) :
    ∃ left, Course s seq replies (.ok (.ofMessages messages)) 1 left := by
  rcases replies_cases seq replies with
    ⟨window, left, messages', hreplies, hcompletes⟩ | ⟨_, reply, _, rfl, -, hreply⟩ | hpending
  · have harrived : messages' <+: arrived.filter (·.header.seq = seq) := by
      rw [← h.answers_eq, hreplies, answers_append]
      exact hcompletes.arrived.trans (List.prefix_append _ _)
    have hsame := (answering_of_terminated hcompletes.terminated harrived).symm.trans
      (answering_of_terminated hterminated hfront)
    obtain rfl : messages' = messages := congrArg Prod.fst hsame
    exact ⟨left, .answered busyRuns_nil s.transmissions_pos hcompletes hled hreplies⟩
  · exact absurd (h.isDatagram reply (by simp)) hreply
  · obtain ⟨earlier, last, rfl, -, hlast⟩ := hterminated
    exact absurd hlast (hpending.unfinished last (h.answers_eq ▸ hfront.subset (by simp)))

def NeverBusy (seq : UInt32) (arrived : List Message) : Prop :=
  ∀ messages, Message.Terminated messages →
    messages <+: arrived.filter (·.header.seq = seq) → ¬Response.LedBy busyCode messages

private theorem exists_common_course (h : NeverBusy seq arrived) (s : Settings) :
    ∃ result, ∀ replies, Fragments seq replies arrived →
      ∃ left, Course s seq replies result 1 left := by
  rcases Message.open_or_terminated (arrived.filter (·.header.seq = seq)) with
    hopen | ⟨messages, hterminated, hfront⟩
  · exact ⟨_, fun replies hreplies => ⟨[], course_of_unfinished hreplies hopen s⟩⟩
  · exact ⟨_, fun replies hreplies => course_of_terminated hreplies hterminated hfront
      (h messages hterminated hfront) s⟩

/-- A course with one transmission, as the run of a request over these replies. -/
private theorem run_request_of_once {c : Connection} {d : Draft} (hd : d.WellFormed)
    (hready : c.kernel.sendFailure = none) {result : Except Error Response}
    {left : List Script.Reply} (h : Course c.settings c.nextSeq replies result 1 left) :
    ((c.withReplies replies).run (request d)).1 = result ∧
      ((c.withReplies replies).run (request d)).2.kernel.sent =
        c.kernel.sent ++ [c.numbered d] := by
  obtain ⟨hresult, hsent, -⟩ := (course_iff (c := c.withReplies replies) hd hready).1 h
  exact ⟨hresult, hsent⟩

/-- However the kernel puts the same messages into datagrams, a request returns the same and sends
the same: the messages under its number up to the first final one, or an error after the time for
one datagram where there is none.  Any split of records, and of messages that tell their own
lengths, is one of these ways. -/
theorem request_ignores_fragmentation (c : Connection) (d : Draft) (hd : d.WellFormed) :
    (∀ parts : List (List Script.Record), (∀ r ∈ parts.flatten, r.Fits) →
      Fragments c.nextSeq (parts.map (.records 0)) (parts.flatten.map (·.message c.nextSeq))) ∧
    (∀ parts : List (List Message), (∀ m ∈ parts.flatten, m.WellFormed) →
      Fragments c.nextSeq (parts.map fun part => .raw 0 (part.flatMap Message.bytes))
        parts.flatten) ∧
    ∀ arrived first second, NeverBusy c.nextSeq arrived → Fragments c.nextSeq first arrived →
      Fragments c.nextSeq second arrived →
      ((c.withReplies first).run (request d)).1 = ((c.withReplies second).run (request d)).1 ∧
      ((c.withReplies first).run (request d)).2.kernel.sent =
        ((c.withReplies second).run (request d)).2.kernel.sent ∧
      (c.kernel.sendFailure = none →
        (∀ messages, Message.Terminated messages →
          messages <+: arrived.filter (·.header.seq = c.nextSeq) →
          ((c.withReplies first).run (request d)).1 = .ok (.ofMessages messages)) ∧
        ((∀ m ∈ arrived.filter (·.header.seq = c.nextSeq), ¬m.header.isFinal) →
          ((c.withReplies first).run (request d)).1 =
            .error (.timeout c.settings.timeout))) := by
  refine ⟨fun _ hparts => .of_records hparts _, fun _ hparts => .of_messages hparts _, ?_⟩
  intro arrived first second hnever hfirst hsecond
  cases hfailure : c.kernel.sendFailure with
  | some kind =>
      rw [run_request_of_refusal (c := c.withReplies first) d hfailure,
        run_request_of_refusal (c := c.withReplies second) d hfailure]
      exact ⟨rfl, rfl, nofun⟩
  | none =>
      obtain ⟨result, hcommon⟩ := exists_common_course hnever c.settings
      obtain ⟨_, hfirstCourse⟩ := hcommon first hfirst
      obtain ⟨_, hsecondCourse⟩ := hcommon second hsecond
      obtain ⟨hfirstResult, hfirstSent⟩ := run_request_of_once hd hfailure hfirstCourse
      obtain ⟨hsecondResult, hsecondSent⟩ := run_request_of_once hd hfailure hsecondCourse
      refine ⟨hfirstResult.trans hsecondResult.symm, hfirstSent.trans hsecondSent.symm, ?_⟩
      refine fun _ => ⟨fun messages hterminated hfront => ?_, fun hopen => ?_⟩
      · obtain ⟨_, hcourse⟩ := course_of_terminated hfirst hterminated hfront
          (hnever messages hterminated hfront) c.settings
        exact (run_request_of_once hd hfailure hcourse).1
      · exact (run_request_of_once hd hfailure (course_of_unfinished hfirst hopen c.settings)).1

/-- An answer to a dump, and behind it a message that comes too late. -/
def dumpAnswer : List Script.Record := [dumpEntry, .done, .ack (-1)]

theorem request_ignores_fragmentation_dumpAnswer :
    ∃ response,
      ((({} : Connection).withReplies [.records 0 dumpAnswer]).run
        (request (.new .getRoute .dump 1024))).1 = .ok response ∧
      ((({} : Connection).withReplies
          [.records 0 [dumpEntry], .records 0 [], .records 0 [.done, .ack (-1)]]).run
        (request (.new .getRoute .dump 1024))).1 = .ok response ∧
      response.read.messages = [dumpEntry.message 1, Script.Record.done.message 1] := by
  obtain ⟨hrecords, -, hsame⟩ := request_ignores_fragmentation {} (.new .getRoute .dump 1024)
    (Draft.wellFormed_new ..)
  have hwhole := hrecords [dumpAnswer] (by decide)
  have hparts := hrecords [[dumpEntry], [], [.done, .ack (-1)]] (by decide)
  have hunder : (dumpAnswer.map (·.message 1)).filter (·.header.seq = 1) =
      dumpAnswer.map (·.message 1) := rfl
  have hnever : NeverBusy 1 (dumpAnswer.map (·.message 1)) := by
    intro messages _ hfront hled
    rw [hunder] at hfront
    cases messages with
    | nil => exact hled
    | cons m _ =>
        obtain ⟨rfl, -⟩ := List.cons_prefix_cons.1 hfront
        exact absurd hled.1 (by decide)
  obtain ⟨hresult, -, hready⟩ := hsame _ _ _ hnever hwhole hparts
  have hwell : ∀ m ∈ [dumpEntry, .done].map (·.message 1), m.WellFormed :=
    List.forall_mem_map.2 fun r hr =>
      Script.Record.wellFormed_message ((by decide : ∀ r ∈ [dumpEntry, .done], r.Fits) r hr) 1
  have hwholeResult := (hready rfl).1 ([dumpEntry, .done].map (·.message 1))
    ⟨[dumpEntry.message 1], _, rfl, by decide, by decide⟩
    ⟨[(Script.Record.ack (-1)).message 1], rfl⟩
  exact ⟨_, hwholeResult, hresult.symm.trans hwholeResult,
    congrArg Message.Reading.messages (Response.read_ofMessages hwell)⟩

end RouteControl.Connection
