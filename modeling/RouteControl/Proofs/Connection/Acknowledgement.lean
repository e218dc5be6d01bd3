import RouteControl.Proofs.Connection.Preparation
import RouteControl.Proofs.Connection.Retry
import RouteControl.Proofs.Response.Verdict

/-!
# Acknowledgement of changes

A change that gets as far as the exchange ends with the verdict of the final response, the one that
is complete and not led by the code of a busy kernel (`FinalResponse`).  Without such a response it
ends with what ended the exchange, and is never taken for done.
-/

namespace RouteControl.Connection

open Response

variable {c : Connection} {d : Draft} {messages : List Message}

/-- The messages of the response that ends the next exchange.  Responses led by the code of a busy
kernel may be used up before it, as long as another transmission is allowed. -/
def FinalResponse (c : Connection) (messages : List Message) : Prop :=
  c.kernel.sendFailure = none ∧ ∃ busy window left,
    c.kernel.replies = busy.flatten ++ (window ++ left) ∧ BusyRuns c.nextSeq busy ∧
      busy.length < c.settings.transmissions ∧ Completes c.nextSeq window messages ∧
        ¬LedBy busyCode messages

theorem FinalResponse.wellFormed (h : FinalResponse c messages) : ∀ m ∈ messages, m.WellFormed := by
  obtain ⟨-, _, _, _, -, -, -, hcompletes, -⟩ := h
  exact hcompletes.wellFormed

theorem FinalResponse.run_request (h : FinalResponse c messages) (hd : d.WellFormed) :
    (c.run (request d)).1 = .ok (.ofMessages messages) := by
  obtain ⟨hready, _, _, _, hreplies, hbusy, hroom, hcompletes, hled⟩ := h
  exact ((course_iff hd hready).1 (.answered hbusy hroom hcompletes hled hreplies)).1

theorem exists_finalResponse (hd : d.WellFormed) {response : Response}
    (h : (c.run (request d)).1 = .ok response) :
    ∃ messages, FinalResponse c messages ∧ response = .ofMessages messages := by
  obtain ⟨hready, attempts, hcourse, -⟩ := exists_course_of_ok hd h
  cases hcourse with
  | answered hbusy hroom hcompletes hled hreplies =>
      exact ⟨_, ⟨hready, _, _, _, hreplies, hbusy, hroom, hcompletes, hled⟩, rfl⟩

/-! ## Exchanges for an acknowledgement -/

theorem run_requestAck (c : Connection) (d : Draft) :
    (c.run (requestAck d)).1 = (c.run (request d)).1.bind Response.ack := by
  rw [requestAck, run_bind]
  cases c.run (request d) with
  | mk result c' =>
      cases result with
      | ok response => exact congrArg Prod.fst (run_ofExcept response.ack c')
      | error e => rfl

theorem run_requestAck_of_error {e : Error} (h : (c.run (request d)).1 = .error e) :
    (c.run (requestAck d)).1 = .error e := by
  rw [run_requestAck, h]
  rfl

theorem FinalResponse.run_requestAck (h : FinalResponse c messages) (hd : d.WellFormed) :
    (c.run (requestAck d)).1 = ackIn none messages := by
  rw [Connection.run_requestAck, h.run_request hd]
  show (ofMessages messages).ack = ackIn none messages
  rw [Response.ack, read_ofMessages h.wellFormed]

/-- A change that gets as far as the exchange is done just when the final response has, in front of
the end of several messages, an error message with code zero as its first.  In general its result is
the verdict of the final response; where there is none, what ended the exchange.  In particular,
as many answers of a busy kernel as there may be transmissions end it. -/
theorem change_verdict (c : Connection) (op : Operation) (d : Draft)
    (h : (c.run op.prepare).1 = .ok d) :
    ((c.run op.perform).1 = .ok () ↔ ∃ messages report, FinalResponse c messages ∧
      FirstReport messages report ∧ ErrorReport.size ≤ report.payload.length ∧
        codeOf report = 0) ∧
    (∀ messages, FinalResponse c messages →
      ∀ result, (c.run op.perform).1 = result ↔ Verdict messages result) ∧
    ((∀ messages, ¬FinalResponse c messages) →
      ∃ e, (c.run (request d)).1 = .error e ∧ (c.run op.perform).1 = .error e) ∧
    (∀ busy left, c.kernel.sendFailure = none → c.kernel.replies = busy.flatten ++ left →
      BusyRuns c.nextSeq busy → busy.length = c.settings.transmissions →
        (c.run op.perform).1 = .error (.retryExhausted c.settings.transmissions)) := by
  have hd : d.WellFormed := (op.drafts_prepare c).2 d h
  rw [op.run_perform h]
  have hverdict : ∀ messages, FinalResponse c messages →
      ∀ result, (c.run (requestAck d)).1 = result ↔ Verdict messages result := by
    intro messages hfinal result
    rw [hfinal.run_requestAck hd]
    exact ackIn_eq_iff
  refine ⟨?_, hverdict, ?_, ?_⟩
  · constructor
    · intro hok
      cases hrun : (c.run (request d)).1 with
      | error e =>
          rw [run_requestAck_of_error hrun] at hok
          cases hok
      | ok response =>
          obtain ⟨messages, hfinal, -⟩ := exists_finalResponse hd hrun
          cases (hverdict messages hfinal _).1 hok with
          | accepted hfirst hwhole hcode => exact ⟨messages, _, hfinal, hfirst, hwhole, hcode⟩
    · rintro ⟨messages, report, hfinal, hfirst, hwhole, hcode⟩
      exact (hverdict messages hfinal _).2 (.accepted hfirst hwhole hcode)
  · intro hnone
    cases hrun : (c.run (request d)).1 with
    | error e => exact ⟨e, rfl, run_requestAck_of_error hrun⟩
    | ok response =>
        obtain ⟨messages, hfinal, -⟩ := exists_finalResponse hd hrun
        exact absurd hfinal (hnone messages)
  · intro busy left hready hreplies hbusy hfull
    exact run_requestAck_of_error ((course_iff hd hready).1 (.exhausted hbusy hfull hreplies)).1

/-- An entry of a dump in front of the report that the entry asked for is there already, both in
answer to the second transmission. -/
def lateRefusal : Connection :=
  { kernel := { replies := [.records 0 [.ack (-16)],
      .records 0 [.route (.v4 0x0a000000) 8 none none, .ack (-17)]] } }

def lateMessages : List Message :=
  [(Script.Record.route (.v4 0x0a000000) 8 none none).message 1,
    (Script.Record.ack (-17)).message 1]

private theorem finalResponse_lateRefusal : FinalResponse lateRefusal lateMessages := by
  have hbusy : Completes 1 [.records 0 [.ack (-16)]] [(Script.Record.ack (-16)).message 1] :=
    completes_record (by decide) rfl (by decide)
  have hruns : BusyRuns 1 [[.records 0 [.ack (-16)]]] :=
    List.forall_mem_singleton.2 ⟨_, hbusy, by decide⟩
  have hanswers : answers 1 [.records 0 [.route (.v4 0x0a000000) 8 none none, .ack (-17)]] =
      lateMessages := by
    rw [answers_singleton, Script.Reply.messages_records (by decide)]
    decide
  have hterminated : Message.Terminated lateMessages := ⟨[_], _, rfl, by decide, by decide⟩
  have harrived : lateMessages <+:
      answers 1 [.records 0 [.route (.v4 0x0a000000) 8 none none, .ack (-17)]] :=
    hanswers ▸ List.prefix_rfl
  have hcompletes := completes_append pending_nil rfl harrived hterminated
  exact ⟨rfl, [[.records 0 [.ack (-16)]]], _, [], rfl, hruns, by decide, hcompletes, by decide⟩

def lateRule : Rule := { family := .inet, table := 300, priority := 7 }

theorem addRule_lateRefusal :
    ∃ d, (lateRefusal.run (Operation.addRule lateRule).prepare).1 = .ok d ∧
      (lateRefusal.run (Operation.addRule lateRule).perform).1 = .error .alreadyExists := by
  have hroom : (Draft.Form.ofCapacity .newRule (.request ||| .ack ||| (.create ||| .exclusive))
      lateRefusal.settings.requestCapacity).Fits
        (Bytes.stack [] (lateRule.header.bytes :: lateRule.attributes.map Attribute.bytes)) := by
    decide
  have hrun := run_compose_draft .newRule (.request ||| .ack ||| (.create ||| .exclusive))
    lateRule.write lateRefusal
  rw [Draft.edited_of_room lateRule.writes hroom] at hrun
  have hprepare := congrArg Prod.fst hrun
  obtain ⟨-, hverdict, -⟩ := change_verdict lateRefusal (.addRule lateRule) _ hprepare
  have hfirst : Response.FirstReport lateMessages ((Script.Record.ack (-17)).message 1) :=
    ⟨[_], [], rfl, by decide, by decide⟩
  exact ⟨_, hprepare,
    (hverdict _ finalResponse_lateRefusal _).2 (.present hfirst (by decide) (by decide))⟩

end RouteControl.Connection
