import RouteControl.Connection.Concurrency
import RouteControl.Proofs.Connection.Calls
import RouteControl.Proofs.Connection.Reassembly

/-!
# Requests at the same time

Requests that are made at the same time come to what they come to one after another
(`together_requests`).  Once one of them has waited no reply is left, so that all later ones queue
and have their turns in their order.
-/

namespace RouteControl

private theorem Duration.add_eq_self {time span : Duration} :
    time + span = time ↔ span = .zero := by
  obtain ⟨n⟩ := time
  obtain ⟨k⟩ := span
  show Duration.mk (n + k) = ⟨n⟩ ↔ Duration.mk k = ⟨0⟩
  simp only [Duration.mk.injEq]
  omega

namespace Connection

variable {c : Connection} {message : Bytes} {seq : UInt32} {limit : Duration}

/-- The results of requests made one after another, and the connection after them. -/
def requests : List Draft → Connection → List (Except Error Response) × Connection
  | [], c => ([], c)
  | d :: ds, c =>
    let (result, c) := c.run (request d)
    let (results, c) := requests ds c
    (result :: results, c)

/-- No reply is left, so that whatever is sent is waited for in vain. -/
structure Deserted (limit : Duration) (c : Connection) : Prop where
  replies_eq : c.kernel.replies = []
  ready : c.kernel.sendFailure = none
  timeout_eq : c.settings.timeout = limit

/-- The clock stands still unless the last reply is used up and one more is waited for. -/
theorem run_transmit_clock (attempts : Nat) (c : Connection) :
    (c.run (transmit message seq attempts)).2.clock = c.clock ∨
      (c.run (transmit message seq attempts)).2.clock = c.clock + c.settings.timeout ∧
        Deserted c.settings.timeout (c.run (transmit message seq attempts)).2 := by
  induction attempts generalizing c with
  | zero => exact .inl rfl
  | succ attempts ih =>
      cases hfailure : c.kernel.sendFailure with
      | some kind =>
          rw [run_transmit_of_refusal hfailure]
          exact .inl rfl
      | none =>
          rcases hgather : c.gathered seq message with ⟨g, left⟩
          cases g with
          | complete messages =>
              rw [run_transmit_of_complete hfailure hgather]
              split
              · exact ih ((c.sending message).withReplies left)
              · exact .inl rfl
          | failed e =>
              rw [run_transmit_of_failed hfailure hgather]
              exact .inl rfl
          | silence =>
              obtain rfl := gather_silence hgather
              rw [run_transmit_of_silence hfailure hgather]
              exact .inr ⟨rfl, rfl, hfailure, rfl⟩

theorem Deserted.run_request (h : Deserted limit c) (d : Draft) :
    (c.run (request d)).2.clock = c.clock + limit ∧ Deserted limit (c.run (request d)).2 := by
  obtain ⟨hreplies, hready, rfl⟩ := h
  obtain ⟨more, hmore⟩ := Nat.exists_eq_add_of_le' c.settings.transmissions_pos
  have hgather : c.numbering.gathered c.nextSeq (c.numbered d) = (.silence, []) := by
    show gather _ _ c.kernel.replies = _
    rw [hreplies, gather]
  rw [Connection.run_request, hmore, run_transmit_of_silence (c := c.numbering) hready hgather]
  exact ⟨rfl, rfl, hready, rfl⟩

theorem deserted_of_waits {d : Draft} (h : waits (request d) c) :
    Deserted c.settings.timeout (c.run (request d)).2 ∧ c.settings.timeout ≠ .zero := by
  have hmoved : (c.run (request d)).2.clock ≠ c.clock := by
    simpa [waits] using h
  rcases run_transmit_clock c.settings.transmissions c.numbering with hsame | ⟨hlater, hdeserted⟩
  · exact absurd hsame hmoved
  · refine ⟨hdeserted, fun hzero => hmoved ?_⟩
    exact hlater.trans (Duration.add_eq_self.2 hzero)

theorem Deserted.waits (h : Deserted limit c) (hlimit : limit ≠ .zero) (d : Draft) :
    Connection.waits (request d) c := by
  obtain ⟨hclock, -⟩ := h.run_request d
  simp only [Connection.waits, hclock, decide_eq_true_eq]
  exact mt Duration.add_eq_self.1 hlimit

theorem startBeside_requests (h : Deserted limit c) (hlimit : limit ≠ .zero) (ds : List Draft) :
    startBeside (ds.map request) c = (ds.map fun d => .queued (request d), c) := by
  induction ds with
  | nil => rfl
  | cons d ds ih =>
      rw [List.map_cons, startBeside, if_pos (h.waits hlimit d), ih]
      rfl

theorem finish_queued (ds : List Draft) (c : Connection) :
    finish (ds.map fun d => .queued (request d)) c = requests ds c := by
  induction ds generalizing c with
  | nil => rfl
  | cons d ds ih =>
      simp only [List.map_cons, finish, requests, ih]

theorem together_requests (ds : List Draft) (c : Connection) :
    together (ds.map request) c = requests ds c := by
  induction ds generalizing c with
  | nil => rfl
  | cons d ds ih =>
      rw [List.map_cons, together, requests]
      by_cases hwaits : waits (request d) c
      · obtain ⟨hdeserted, hlimit⟩ := deserted_of_waits hwaits
        simp only [if_pos hwaits, startBeside_requests hdeserted hlimit, finish_queued]
      · simp only [if_neg hwaits, ih]

end Connection

end RouteControl
