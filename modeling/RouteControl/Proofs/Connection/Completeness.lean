import RouteControl.Proofs.Connection.Retry

/-!
# Completeness of responses

A response that a request returns holds what the kernel sent in answer to its last transmission,
all of it and nothing else: the messages under the number of the request, in order of arrival, up
to the first final one.  Where no final message under the number arrives, no response is returned.
-/

namespace RouteControl.Connection

theorem Completes.read_ofMessages {seq : UInt32} {window : List Script.Reply}
    {messages : List Message} (h : Completes seq window messages) :
    (Response.ofMessages messages).read = ⟨messages, none⟩ ∧
      (∀ m ∈ messages, m.header.seq = seq) ∧
      (Response.ofMessages messages).bytes.length =
        (messages.map fun m => Bytes.align m.header.length.toNat).sum :=
  ⟨Response.read_ofMessages h.wellFormed,
    fun _ hm => (mem_answers.1 (h.arrived.subset hm)).2,
    Response.length_ofMessages h.wellFormed⟩

theorem Completes.exists_final {seq : UInt32} {window : List Script.Reply}
    {messages : List Message} (h : Completes seq window messages) :
    ∃ m ∈ answers seq window, m.header.isFinal := by
  obtain ⟨earlier, last, rfl, -, hlast⟩ := h.terminated
  exact ⟨last, h.arrived.subset (by simp), hlast⟩

/-- Behind a response that is returned are the replies that completed it; those before them were
answers of a busy kernel to earlier transmissions. -/
theorem exists_completes_of_ok {c : Connection} {d : Draft} (hd : d.WellFormed)
    {response : Response} (h : (c.run (request d)).1 = .ok response) :
    ∃ busy window messages, BusyRuns c.nextSeq busy ∧
      c.kernel.replies = busy.flatten ++ (window ++ (c.run (request d)).2.kernel.replies) ∧
      (c.run (request d)).2.kernel.sent =
        c.kernel.sent ++ List.replicate (busy.length + 1) (c.numbered d) ∧
      Completes c.nextSeq window messages ∧ response = .ofMessages messages := by
  obtain ⟨-, attempts, hcourse, hsent⟩ := exists_course_of_ok hd h
  cases hcourse with
  | answered hbusy hroom hcompletes hled hreplies =>
      exact ⟨_, _, _, hbusy, hreplies, hsent, hcompletes, rfl⟩

/-- A response that is returned is read without a fault as the messages under the number of the
request that the kernel's datagrams bring behind the last transmission, up to the first final one;
earlier transmissions used up the replies in front of these.  Without a final message under the
number there is no response. -/
theorem request_response_complete (c : Connection) (d : Draft) (hd : d.WellFormed) :
    (∀ response, (c.run (request d)).1 = .ok response →
      ∃ busy window, BusyRuns c.nextSeq busy ∧
        c.kernel.replies =
          busy.flatten ++ (window ++ (c.run (request d)).2.kernel.replies) ∧
        (c.run (request d)).2.kernel.sent =
          c.kernel.sent ++ List.replicate (busy.length + 1) (c.numbered d) ∧
        Completes c.nextSeq window response.read.messages ∧
        response.read.fault = none ∧
        (∀ m ∈ response.read.messages, m.header.seq = c.nextSeq) ∧
        response.bytes.length =
          (response.read.messages.map fun m => Bytes.align m.header.length.toNat).sum) ∧
    ((∀ m ∈ answers c.nextSeq c.kernel.replies, ¬m.header.isFinal) →
      ∀ response, (c.run (request d)).1 ≠ .ok response) := by
  constructor
  · intro response h
    obtain ⟨busy, window, messages, hbusy, hreplies, hsent, hcompletes, rfl⟩ :=
      exists_completes_of_ok hd h
    obtain ⟨hread, hseq, hlength⟩ := hcompletes.read_ofMessages
    rw [hread]
    exact ⟨busy, window, hbusy, hreplies, hsent, hcompletes, rfl, hseq, hlength⟩
  · intro hopen response h
    obtain ⟨busy, window, messages, -, hreplies, -, hcompletes, -⟩ := exists_completes_of_ok hd h
    obtain ⟨last, hlast, hfinal⟩ := hcompletes.exists_final
    refine hopen last ?_ hfinal
    rw [hreplies, answers_append, answers_append]
    exact List.mem_append_right _ (List.mem_append_left _ hlast)

def staleDone : Script.Record := { Script.Record.done with seq := some 9 }

def dumpEntry : Script.Record := .route (.v4 0x0a000000) 8 none none

/-- A kernel that answers a dump in two datagrams, with a message under another number in the first
and a datagram from elsewhere between them. -/
def splitReply : Connection :=
  { kernel := { replies := [.records 0 [staleDone, dumpEntry], .records 7 [.done],
      .records 0 [.done], .records 0 [.ack 0]] } }

theorem request_splitReply :
    ∃ response, (splitReply.run (request (.new .getRoute .dump 1024))).1 = .ok response ∧
      response.read.messages = [dumpEntry.message 1, Script.Record.done.message 1] ∧
      response.read.fault = none ∧ response.bytes.length = 56 := by
  have hd := Draft.wellFormed_new .getRoute .dump 1024
  have hanswers : answers 1 [.records 0 [staleDone, dumpEntry], .records 7 [.done]] =
      [dumpEntry.message 1] := by
    rw [answers_cons, answers_singleton, answers_singleton,
      Script.Reply.messages_records (by decide), Script.Reply.messages_foreign (by decide)]
    decide
  have hpending : Pending 1 [.records 0 [staleDone, dumpEntry], .records 7 [.done]] :=
    ⟨by decide, by rw [hanswers]; decide⟩
  have hdone : Completes 1 [.records 0 [.done]] [Script.Record.done.message 1] :=
    completes_record (by decide) rfl (by decide)
  have hcompletes := completes_append hpending rfl hdone.arrived hdone.terminated
  rw [hanswers] at hcompletes
  have hnone : BusyRuns 1 [] := by simp [BusyRuns]
  have hcourse : Course splitReply.settings splitReply.nextSeq splitReply.kernel.replies _ 1
      [.records 0 [.ack 0]] :=
    .answered hnone (by decide) hcompletes (by decide) rfl
  obtain ⟨hok, -⟩ := (course_iff hd rfl).1 hcourse
  obtain ⟨hresponse, -⟩ := request_response_complete splitReply _ hd
  obtain ⟨_, _, -, -, -, -, hfault, -, hlength⟩ := hresponse _ hok
  obtain ⟨hread, -⟩ := hcompletes.read_ofMessages
  rw [hread] at hlength
  exact ⟨_, hok, by rw [hread]; rfl, hfault, hlength⟩

end RouteControl.Connection
