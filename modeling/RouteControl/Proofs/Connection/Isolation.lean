import Mathlib.Data.List.Perm.Subperm
import RouteControl.Proofs.Connection.Completeness
import RouteControl.Proofs.Connection.Concurrency
import RouteControl.Proofs.Connection.Turns

/-!
# Isolation of calls

Calls that share a connection do not disturb one another, whatever they come to and however they
are scheduled (`Floor.Isolated`).  Each has a number of its own, and sends under it; each uses up
its own replies, which lie behind those of the calls before it; and a response that it returns is
made of messages that bear its number and came with these replies.
-/

namespace RouteControl.Connection

variable {first last : Connection} {ts : List Turn}

/-! ## What turns in a row add up to -/

theorem Row.sent_eq (h : Row first ts last) :
    last.kernel.sent = first.kernel.sent ++ ts.flatMap Turn.sent := by
  induction ts generalizing first with
  | nil =>
      obtain rfl : first = last := h
      exact (List.append_nil _).symm
  | cons t ts ih =>
      obtain ⟨rfl, c, ht, hrow⟩ := h
      rw [ih hrow, ht.sent_eq, List.append_assoc, List.flatMap_cons]

theorem Row.replies_eq (h : Row first ts last) :
    first.kernel.replies = ts.flatMap Turn.received ++ last.kernel.replies := by
  induction ts generalizing first with
  | nil =>
      obtain rfl : first = last := h
      rfl
  | cons t ts ih =>
      obtain ⟨rfl, c, ht, hrow⟩ := h
      rw [ht.replies_eq, ih hrow, List.flatMap_cons, List.append_assoc]

theorem Row.seqs (h : Row first ts last) (hroom : first.nextSeq.toNat + ts.length ≤ UInt32.size) :
    ts.map (·.seq.toNat) = List.range' first.nextSeq.toNat ts.length := by
  induction ts generalizing first with
  | nil => rfl
  | cons t ts ih =>
      obtain ⟨rfl, c, ht, hrow⟩ := h
      rw [List.length_cons] at hroom
      rw [List.map_cons, List.length_cons, List.range'_succ]
      by_cases hlast : ts = []
      · subst hlast
        rfl
      · have hpos := List.length_pos_of_ne_nil hlast
        have hfits : t.before.nextSeq.toNat + 1 < UInt32.size := by omega
        have hnext : c.nextSeq.toNat = t.before.nextSeq.toNat + 1 := by
          rw [ht.nextSeq_eq, UInt32.toNat_add]
          exact Nat.mod_eq_of_lt hfits
        rw [ih hrow (by omega), hnext]
        rfl

theorem Row.pairwise_seq (h : Row first ts last)
    (hroom : first.nextSeq.toNat + ts.length ≤ UInt32.size) :
    ts.Pairwise fun earlier later => earlier.seq < later.seq := by
  have hincreasing : (ts.map (·.seq.toNat)).Pairwise (· < ·) := by
    rw [h.seqs hroom]
    exact List.pairwise_lt_range'
  rw [List.pairwise_map] at hincreasing
  exact hincreasing.imp UInt32.lt_iff_toNat_lt.2

theorem Row.requests_eq (h : Row first ts last) (hover : ∀ t ∈ ts, t.progress.isEnded) :
    requests (ts.map Turn.draft) first = (ts.map Turn.result, last) := by
  induction ts generalizing first with
  | nil =>
      obtain rfl : first = last := h
      rfl
  | cons t ts ih =>
      obtain ⟨rfl, c, ht, hrow⟩ := h
      obtain ⟨hhead, htail⟩ := List.forall_mem_cons.1 hover
      obtain ⟨result, hresult⟩ := Progress.eq_ended hhead
      obtain ⟨-, rfl⟩ := ht.of_ended hresult
      have hrest := ih hrow htail
      simp only [List.map_cons, requests]
      rw [show (t.before.run (request t.draft)).2 = t.after from rfl, hrest]
      rfl

/-! ## What a turn sends and delivers -/

namespace Turn

variable {t : Turn} {c : Connection}

/-- The turn is over, and this message is in the response that it came to. -/
def Delivers (t : Turn) (m : Message) : Prop :=
  ∃ response, t.progress = .ended (.ok response) ∧ m ∈ response.read.messages

theorem Reaches.decode_sent (h : t.Reaches c) (hd : t.draft.WellFormed) {message : Bytes}
    (hmessage : message ∈ t.sent) :
    ∃ header, MessageHeader.decode message = .ok header ∧ header.seq = t.seq := by
  rw [h.messages message hmessage]
  exact ⟨_, Draft.decode_bytes_withSeq_withPortId hd .., rfl⟩

/-- What is delivered bears the number of the turn and came with a reply that the turn used up. -/
theorem Reaches.of_delivers (h : t.Reaches c) (hd : t.draft.WellFormed) {m : Message}
    (hm : t.Delivers m) :
    m.header.seq = t.seq ∧ ∃ reply ∈ t.received, m ∈ reply.messages t.seq := by
  obtain ⟨response, hover, hm⟩ := hm
  obtain ⟨hresult, rfl⟩ := h.of_ended hover
  obtain ⟨busy, window, messages, -, hreplies, -, hcompletes, rfl⟩ :=
    exists_completes_of_ok hd hresult.symm
  have hreceived : t.received = busy.flatten ++ window := by
    have hsame := h.replies_eq.symm.trans hreplies
    rw [← List.append_assoc] at hsame
    exact List.append_cancel_right hsame
  obtain ⟨hread, -⟩ := hcompletes.read_ofMessages
  rw [hread] at hm
  obtain ⟨⟨reply, hreply, hmem⟩, hseq⟩ := mem_answers.1 (hcompletes.arrived.subset hm)
  refine ⟨hseq, reply, ?_, hmem⟩
  rw [hreceived]
  exact List.mem_append_right _ hreply

end Turn

/-! ## Calls in any order -/

namespace Floor

variable {ds : List Draft} {f : Floor}

/-- The calls on the floor, begun on the first connection, do not disturb one another.  Each turn is
the one call of a caller.  What is done, sent and received is that of the turns, one turn after the
other, under numbers that increase.  A turn delivers messages that bear its number and came while it
lasted, and nothing that an earlier turn delivered or that bears the number of one.  Turns that are
over came to what their requests come to when they are made one after another. -/
structure Isolated (first : Connection) (ds : List Draft) (f : Floor) : Prop where
  callers : (f.turns.map Turn.caller).Nodup ∧ ∀ t ∈ f.turns, ds[t.caller]? = some t.draft
  log_eq : f.log = f.turns.flatMap Turn.log
  admitted : ∀ t ∈ f.turns, t.acts.head? = some (.admitted t.seq)
  seqs : f.turns.Pairwise fun earlier later => earlier.seq < later.seq
  sent_eq : f.connection.kernel.sent = first.kernel.sent ++ f.turns.flatMap Turn.sent
  numbered : ∀ t ∈ f.turns, ∀ message ∈ t.sent,
    ∃ header, MessageHeader.decode message = .ok header ∧ header.seq = t.seq
  replies_eq : first.kernel.replies = f.turns.flatMap Turn.received ++ f.connection.kernel.replies
  delivered : ∀ t ∈ f.turns, ∀ m, t.Delivers m →
    m.header.seq = t.seq ∧ ∃ reply ∈ t.received, m ∈ reply.messages t.seq
  apart : f.turns.Pairwise fun earlier later => ∀ m, later.Delivers m →
    m.header.seq ≠ earlier.seq ∧ ¬earlier.Delivers m
  ended : ∀ t ∈ f.past, t.progress = .ended t.result
  sequential : f.holder = none →
    requests (f.past.map Turn.draft) first = (f.past.map Turn.result, f.connection)

theorem Valid.length_turns_le (h : f.Valid first ds) : f.turns.length ≤ ds.length := by
  have hcallers : f.turns.map Turn.caller ⊆ List.range ds.length := by
    intro caller hcaller
    obtain ⟨t, ht, rfl⟩ := List.mem_map.1 hcaller
    exact List.mem_range.2 (List.getElem?_eq_some_iff.1 (h.drafts t ht)).1
  simpa using (h.callers.subperm hcallers).length_le

theorem Valid.isolated (h : f.Valid first ds)
    (hroom : first.nextSeq.toNat + ds.length ≤ UInt32.size) (hds : ∀ d ∈ ds, d.WellFormed) :
    f.Isolated first ds := by
  have hwellFormed : ∀ t ∈ f.turns, t.draft.WellFormed := by
    intro t ht
    exact hds t.draft (List.mem_of_getElem? (h.drafts t ht))
  have hseqs := h.row.pairwise_seq
    (Nat.le_trans (Nat.add_le_add_left h.length_turns_le _) hroom)
  have hdelivered : ∀ t ∈ f.turns, ∀ m, t.Delivers m →
      m.header.seq = t.seq ∧ ∃ reply ∈ t.received, m ∈ reply.messages t.seq := by
    intro t ht m hm
    obtain ⟨c, hreaches⟩ := h.row.exists_reaches ht
    exact hreaches.of_delivers (hwellFormed t ht) hm
  constructor
  case callers => exact ⟨h.callers, h.drafts⟩
  case log_eq => exact h.log_eq
  case admitted =>
      intro t ht
      obtain ⟨c, hreaches⟩ := h.row.exists_reaches ht
      exact hreaches.admitted
  case seqs => exact hseqs
  case sent_eq => exact h.row.sent_eq
  case numbered =>
      intro t ht message hmessage
      obtain ⟨c, hreaches⟩ := h.row.exists_reaches ht
      exact hreaches.decode_sent (hwellFormed t ht) hmessage
  case replies_eq => exact h.row.replies_eq
  case delivered => exact hdelivered
  case apart =>
      refine hseqs.imp_of_mem ?_
      intro earlier later hearlier hlater hlt m hm
      have hne : m.header.seq ≠ earlier.seq := by
        rw [(hdelivered later hlater m hm).1]
        exact Ne.symm (UInt32.ne_of_lt hlt)
      exact ⟨hne, fun hm' => hne (hdelivered earlier hearlier m hm').1⟩
  case ended =>
      intro t ht
      obtain ⟨c, hreaches⟩ := h.row.exists_reaches (List.mem_append_left _ ht)
      obtain ⟨result, hresult⟩ := Progress.eq_ended (h.ended t ht)
      obtain ⟨rfl, -⟩ := hreaches.of_ended hresult
      exact hresult
  case sequential =>
      intro hholder
      have hrow := h.row
      rw [turns_of_none hholder] at hrow
      exact hrow.requests_eq h.ended

end Floor

/-- However calls on one connection are scheduled, and whatever they come to, they are isolated, and
all of them can come to their ends.  A connection starts with the number one, and so it has numbers
for any fewer than 2 ^ 32 calls. -/
theorem calls_isolated (c : Connection) (ds : List Draft)
    (hroom : c.nextSeq.toNat + ds.length ≤ UInt32.size) (hds : ∀ d ∈ ds, d.WellFormed)
    (schedule : List Nat) :
    (Floor.run ds schedule { connection := c }).Isolated c ds ∧
    ∃ more, (Floor.run ds (schedule ++ more) { connection := c }).holder = none ∧
      ∀ caller < ds.length,
        caller ∈ (Floor.run ds (schedule ++ more) { connection := c }).past.map Turn.caller := by
  refine ⟨((Floor.valid_start c ds).run schedule).isolated hroom hds, ?_⟩
  obtain ⟨more, hend⟩ := Floor.exists_run_to_end ds (Floor.run ds schedule { connection := c })
  rw [← Floor.run_append] at hend
  exact ⟨more, hend⟩

/-- A kernel that cannot be received from at first, and whose answer to the first request comes
together with that to the second. -/
def lateReply : Connection :=
  { kernel := { replies := [.failure .interrupted,
      .records 0 [{ Script.Record.ack 0 with seq := some 1 }, .ack 0]] } }

def twoDrafts : List Draft := [.new .newRule .request 16, .new .newRule .request 16]

/-- Two calls, of which the second was admitted first and failed; the first has sent. -/
def lateFloor : Floor := Floor.run twoDrafts [1, 0, 1, 1, 0, 0] { connection := lateReply }

private theorem lateFloor_delivers :
    ∃ t ∈ (lateFloor.step twoDrafts 0).past, t.caller = 0 ∧ t.seq = 2 ∧
      t.Delivers ((Script.Record.ack 0).message 2) := by
  obtain ⟨t, hholder, hcaller, hseq, message, hreceiving⟩ : ∃ t, lateFloor.holder = some t ∧
      t.caller = 0 ∧ t.seq = 2 ∧ ∃ message, t.progress = .receiving message 2 2 [] :=
    ⟨_, rfl, rfl, rfl, _, rfl⟩
  have hreplies : lateFloor.connection.kernel.replies =
      [.records 0 [{ Script.Record.ack 0 with seq := some 1 }, .ack 0]] := rfl
  have hstamp : lateFloor.connection.kernel.lastSeq = 2 := rfl
  have hanswering : answering 2 ([{ Script.Record.ack 0 with seq := some 1 }, .ack 0].map
      (·.message 2)) = ([(Script.Record.ack 0).message 2], true) := by decide
  have hwell : ∀ m ∈ [(Script.Record.ack 0).message 2], m.WellFormed :=
    List.forall_mem_singleton.2 (Script.Record.wellFormed_message (by decide) 2)
  have hled : ¬Response.LedBy busyCode [(Script.Record.ack 0).message 2] := by decide
  have hover : (advance t.progress lateFloor.connection).progress =
      .ended (.ok (.ofMessages [(Script.Record.ack 0).message 2])) := by
    rw [hreceiving, advance_receiving_datagram hreplies rfl, hstamp,
      Script.Reply.messages_records (by decide), hanswering]
    exact if_neg (mt (Response.leadingError?_eq_some_iff hwell _).1 hled)
  refine ⟨t.next (advance t.progress lateFloor.connection), ?_, hcaller, hseq, _, hover, ?_⟩
  · have hstep : lateFloor.step twoDrafts 0 = lateFloor.proceed t := by
      rw [Floor.step, hholder]
      exact if_pos hcaller
    rw [hstep, Floor.proceed]
    simp [hover, Progress.isEnded]
  · rw [Response.read_ofMessages hwell]
    exact List.mem_singleton_self _

theorem lateFloor_isolated :
    (lateFloor.step twoDrafts 0).Isolated lateReply twoDrafts ∧
      ∃ t ∈ (lateFloor.step twoDrafts 0).past, t.caller = 0 ∧ t.seq = 2 ∧
        t.Delivers ((Script.Record.ack 0).message 2) := by
  have hds : ∀ d ∈ twoDrafts, d.WellFormed := by
    intro d hd
    obtain rfl : d = .new .newRule .request 16 := by simpa [twoDrafts] using hd
    exact Draft.wellFormed_new ..
  obtain ⟨hisolated, -⟩ :=
    calls_isolated lateReply twoDrafts (by decide) hds [1, 0, 1, 1, 0, 0, 0]
  exact ⟨hisolated, lateFloor_delivers⟩

end RouteControl.Connection
