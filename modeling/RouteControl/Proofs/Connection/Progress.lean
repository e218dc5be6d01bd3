import RouteControl.Proofs.Connection.Calls
import RouteControl.Proofs.Connection.Reassembly

/-!
# Requests step by step

A request that has its turn sends its message, receives one reply after the other, and sends again
while the kernel is busy (`advance`).  What is left to do of it is a call again (`resume`), and a
step does the first part of this call (`run_resume_advance`): taken to the end, the steps come to
what `request` comes to.
-/

namespace RouteControl.Connection

/-- How far a request got, with the number of transmissions that are left and, while replies are
awaited, the messages of the response that are there. -/
inductive Progress where
  | sending (message : Bytes) (seq : UInt32) (left : Nat)
  | receiving (message : Bytes) (seq : UInt32) (left : Nat) (collected : List Message)
  | ended (result : Except Error Response)

/-- What a request does to the kernel's side of the connection. -/
inductive Act where
  | admitted (seq : UInt32)
  | sent (message : Bytes)
  | received (reply : Script.Reply)

def Act.sent? : Act → Option Bytes
  | sent message => some message
  | admitted _ | received _ => none

def Act.received? : Act → Option Script.Reply
  | received reply => some reply
  | admitted _ | sent _ => none

structure Move where
  progress : Progress
  connection : Connection
  act : Option Act

def Progress.ofResponse (message : Bytes) (seq : UInt32) (left : Nat) (response : Response) :
    Progress :=
  if response.leadingError? = some busyCode then sending message seq left else ended (.ok response)

/-- One step of a request: it sends, or waits for one reply. -/
def advance : Progress → Connection → Move
  | .sending _ _ 0, c => ⟨.ended (.error (.retryExhausted c.settings.transmissions)), c, none⟩
  | .sending message seq (left + 1), c =>
    match c.kernel.send message with
    | .ok kernel => ⟨.receiving message seq left [], { c with kernel }, some (.sent message)⟩
    | .error e => ⟨.ended (.error e), c, none⟩
  | .receiving message seq left collected, c =>
    match c.kernel.replies with
    | [] =>
      let limit := c.settings.timeout
      ⟨.ended (.error (.timeout limit)), { c with clock := c.clock + limit }, none⟩
    | reply :: rest =>
      let progress :=
        match reply.receive c.kernel.lastSeq with
        | .error e => .ended (.error e)
        | .ok _ =>
          let (messages, complete) := answering seq (reply.messages c.kernel.lastSeq)
          if complete then .ofResponse message seq left (.ofMessages (collected ++ messages))
          else .receiving message seq left (collected ++ messages)
      ⟨progress, c.withReplies rest, some (.received reply)⟩
  | .ended result, c => ⟨.ended result, c, none⟩

def receiveBehind (seq : UInt32) (collected : List Message) : Call Response := fun c =>
  let (gathered, left) := gather seq c.kernel.lastSeq c.kernel.replies
  match gathered.behind collected with
  | .complete messages => .ok (.ofMessages messages) (c.withReplies left)
  | .failed e => .error e (c.withReplies left)
  | .silence =>
    let limit := c.settings.timeout
    .error (.timeout limit) { c.withReplies left with clock := c.clock + limit }

/-- What is left to do of a request. -/
def resume : Progress → Call Response
  | .sending message seq left => transmit message seq left
  | .receiving message seq left collected => do
    let response ← receiveBehind seq collected
    if response.leadingError? = some busyCode then transmit message seq left else return response
  | .ended result => ofExcept result

variable {c : Connection} {message : Bytes} {seq : UInt32} {left : Nat} {collected : List Message}
  {reply : Script.Reply} {rest : List Script.Reply}

private theorem receiveBehind_nil : receiveBehind seq [] = receive seq := by
  funext c
  rw [receiveBehind, receive]
  rcases gather seq c.kernel.lastSeq c.kernel.replies with ⟨gathered, left⟩
  simp only [Gathered.behind_nil]
  cases gathered <;> rfl

/-! ## What a step comes to -/

theorem advance_sending_of_ready (h : c.kernel.sendFailure = none) :
    advance (.sending message seq (left + 1)) c =
      ⟨.receiving message seq left [], c.sending message, some (.sent message)⟩ := by
  rw [advance, Kernel.send_of_ready h]
  rfl

theorem advance_sending_of_refusal {kind : IoKind} (h : c.kernel.sendFailure = some kind) :
    advance (.sending message seq (left + 1)) c =
      ⟨.ended (.error (.transmitFailure kind)), c, none⟩ := by
  rw [advance, Kernel.send_of_refusal h]

theorem advance_receiving_nil (h : c.kernel.replies = []) :
    advance (.receiving message seq left collected) c =
      ⟨.ended (.error (.timeout c.settings.timeout)),
        { c with clock := c.clock + c.settings.timeout }, none⟩ := by
  rw [advance, h]

theorem advance_receiving_failure (h : c.kernel.replies = reply :: rest) {e : Error}
    (hreply : reply.receive c.kernel.lastSeq = .error e) :
    advance (.receiving message seq left collected) c =
      ⟨.ended (.error e), c.withReplies rest, some (.received reply)⟩ := by
  rw [advance, h]
  simp only [hreply]

theorem advance_receiving_datagram (h : c.kernel.replies = reply :: rest)
    {datagram : Datagram} (hreply : reply.receive c.kernel.lastSeq = .ok datagram) :
    advance (.receiving message seq left collected) c =
      ⟨if (answering seq (reply.messages c.kernel.lastSeq)).2 then
          .ofResponse message seq left
            (.ofMessages (collected ++ (answering seq (reply.messages c.kernel.lastSeq)).1))
        else
          .receiving message seq left
            (collected ++ (answering seq (reply.messages c.kernel.lastSeq)).1),
        c.withReplies rest, some (.received reply)⟩ := by
  rw [advance, h]
  simp only [hreply]

/-! ## What a step changes -/

/-- The request sends this message, under this number. -/
def Progress.Bears (message : Bytes) (seq : UInt32) : Progress → Prop
  | sending m s _ | receiving m s _ _ => m = message ∧ s = seq
  | ended _ => True

/-- How many more steps there may be, those that use up a reply apart. -/
def Progress.todo : Progress → Nat
  | sending _ _ left => 2 * left + 1
  | receiving _ _ left _ => 2 * left + 2
  | ended _ => 0

def Progress.isEnded : Progress → Bool
  | ended _ => true
  | sending .. | receiving .. => false

theorem Progress.eq_ended {progress : Progress} (h : progress.isEnded) :
    ∃ result, progress = ended result := by
  cases progress with
  | ended result => exact ⟨result, rfl⟩
  | sending | receiving => cases h

theorem Progress.todo_pos {progress : Progress} (h : ¬progress.isEnded) : 0 < progress.todo := by
  cases progress with
  | ended result => exact absurd rfl h
  | sending | receiving => exact Nat.zero_lt_succ _

private theorem bears_ofResponse (message : Bytes) (seq : UInt32) (left : Nat)
    (response : Response) :
    (Progress.ofResponse message seq left response).Bears message seq ∧
      (Progress.ofResponse message seq left response).todo ≤ 2 * left + 1 := by
  unfold Progress.ofResponse
  split
  · exact ⟨⟨rfl, rfl⟩, Nat.le_refl _⟩
  · exact ⟨trivial, Nat.zero_le _⟩

theorem advance_receiving_cons (message : Bytes) (seq : UInt32) (left : Nat)
    (collected : List Message) (h : c.kernel.replies = reply :: rest) :
    ∃ progress, advance (.receiving message seq left collected) c =
        ⟨progress, c.withReplies rest, some (.received reply)⟩ ∧
      progress.Bears message seq ∧ progress.todo ≤ 2 * left + 2 := by
  cases hreceive : reply.receive c.kernel.lastSeq with
  | error e => exact ⟨_, advance_receiving_failure h hreceive, trivial, Nat.zero_le _⟩
  | ok datagram =>
      refine ⟨_, advance_receiving_datagram h hreceive, ?_⟩
      split
      · obtain ⟨hbears, htodo⟩ := bears_ofResponse message seq left _
        exact ⟨hbears, Nat.le_succ_of_le htodo⟩
      · exact ⟨⟨rfl, rfl⟩, Nat.le_refl _⟩

/-- What a step of a request does to a connection, and what it tells of it. -/
structure Move.Accounts (message : Bytes) (seq : UInt32) (before : Connection) (move : Move) :
    Prop where
  bears : move.progress.Bears message seq
  sent_eq : move.connection.kernel.sent =
    before.kernel.sent ++ move.act.toList.filterMap Act.sent?
  replies_eq : before.kernel.replies =
    move.act.toList.filterMap Act.received? ++ move.connection.kernel.replies
  messages : ∀ m ∈ move.act.toList.filterMap Act.sent?, m = message
  nextSeq_eq : move.connection.nextSeq = before.nextSeq

theorem advance_accounts {progress : Progress} (h : progress.Bears message seq) (c : Connection) :
    (advance progress c).Accounts message seq c := by
  have hnone : ∀ (result : Except Error Response) (clock : Duration),
      (Move.mk (.ended result) { c with clock } none).Accounts message seq c :=
    fun result clock => ⟨trivial, by simp, rfl, by simp, rfl⟩
  cases progress with
  | sending m s left =>
      obtain ⟨rfl, rfl⟩ := h
      cases left with
      | zero => exact hnone _ c.clock
      | succ left =>
          cases hfailure : c.kernel.sendFailure with
          | none =>
              rw [advance_sending_of_ready hfailure]
              exact ⟨⟨rfl, rfl⟩, rfl, rfl, by simp [Act.sent?], rfl⟩
          | some kind =>
              rw [advance_sending_of_refusal hfailure]
              exact hnone _ c.clock
  | receiving m s left collected =>
      obtain ⟨rfl, rfl⟩ := h
      cases hreplies : c.kernel.replies with
      | nil =>
          rw [advance_receiving_nil hreplies]
          exact hnone _ _
      | cons reply rest =>
          obtain ⟨progress, hmove, hbears, -⟩ :=
            advance_receiving_cons m s left collected hreplies
          rw [hmove]
          exact ⟨hbears, (List.append_nil _).symm, hreplies, by simp [Act.sent?], rfl⟩
  | ended result => exact hnone result c.clock

theorem advance_todo {progress : Progress} (h : 0 < progress.todo) (c : Connection) :
    (advance progress c).progress.todo + (advance progress c).connection.kernel.replies.length <
      progress.todo + c.kernel.replies.length := by
  cases progress with
  | sending m s left =>
      cases left with
      | zero => simp [advance, Progress.todo]
      | succ left =>
          cases hfailure : c.kernel.sendFailure with
          | none =>
              have hreplies : (c.sending m).kernel.replies = c.kernel.replies := rfl
              simp only [advance_sending_of_ready hfailure, Progress.todo, hreplies]
              omega
          | some kind =>
              simp only [advance_sending_of_refusal hfailure, Progress.todo]
              omega
  | receiving m s left collected =>
      cases hreplies : c.kernel.replies with
      | nil =>
          simp [advance_receiving_nil hreplies, Progress.todo, hreplies]
      | cons reply rest =>
          obtain ⟨progress, hmove, -, htodo⟩ :=
            advance_receiving_cons m s left collected hreplies
          rw [hmove]
          show progress.todo + rest.length < 2 * left + 2 + (rest.length + 1)
          omega
  | ended result => exact absurd h (Nat.lt_irrefl 0)

/-! ## A step is the first part of what is left to do -/

private theorem withReplies_of_eq (h : c.kernel.replies = rest) : c.withReplies rest = c := by
  rw [← h]
  rfl

theorem receiveBehind_nil_replies (h : c.kernel.replies = []) :
    c.run (receiveBehind seq collected) =
      (.error (.timeout c.settings.timeout),
        { c with clock := c.clock + c.settings.timeout }) := by
  simp only [run, EStateM.run, receiveBehind, h, gather, Gathered.behind, withReplies_of_eq h]

theorem receiveBehind_failure (h : c.kernel.replies = reply :: rest) {e : Error}
    (hreply : reply.receive c.kernel.lastSeq = .error e) :
    c.run (receiveBehind seq collected) = (.error e, c.withReplies rest) := by
  simp only [run, EStateM.run, receiveBehind, h, gather_of_failure hreply, Gathered.behind]

theorem receiveBehind_datagram (h : c.kernel.replies = reply :: rest) (hreply : reply.isDatagram) :
    c.run (receiveBehind seq collected) =
      if (answering seq (reply.messages c.kernel.lastSeq)).2 then
        (.ok (.ofMessages (collected ++ (answering seq (reply.messages c.kernel.lastSeq)).1)),
          c.withReplies rest)
      else
        (c.withReplies rest).run (receiveBehind seq
          (collected ++ (answering seq (reply.messages c.kernel.lastSeq)).1)) := by
  simp only [run, EStateM.run, receiveBehind, h, gather_cons hreply]
  by_cases hcomplete : (answering seq (reply.messages c.kernel.lastSeq)).2
  · simp only [if_pos hcomplete, Gathered.behind]
  · simp only [if_neg hcomplete, Gathered.behind_behind]
    rfl

private theorem run_resume_ofResponse (response : Response) :
    c.run (resume (.ofResponse message seq left response)) =
      c.run (if response.leadingError? = some busyCode then transmit message seq left
        else return response) := by
  rw [Progress.ofResponse]
  split <;> rfl

/-- What is left to do after a step is what was left to do before it, without this step. -/
theorem run_resume_advance (progress : Progress) (c : Connection) :
    (advance progress c).connection.run (resume (advance progress c).progress) =
      c.run (resume progress) := by
  cases progress with
  | sending message seq left =>
      cases left with
      | zero => rfl
      | succ left =>
          cases hfailure : c.kernel.sendFailure with
          | none =>
              simp only [advance_sending_of_ready hfailure, resume, receiveBehind_nil,
                run_transmit_of_ready hfailure]
          | some kind =>
              rw [advance_sending_of_refusal hfailure, resume, resume,
                run_transmit_of_refusal hfailure, run_ofExcept]
  | receiving message seq left collected =>
      cases hreplies : c.kernel.replies with
      | nil =>
          rw [advance_receiving_nil hreplies, resume, resume, run_bind,
            receiveBehind_nil_replies hreplies, run_ofExcept]
      | cons reply rest =>
          cases hreceive : reply.receive c.kernel.lastSeq with
          | error e =>
              rw [advance_receiving_failure hreplies hreceive, resume, resume, run_bind,
                receiveBehind_failure hreplies hreceive, run_ofExcept]
          | ok datagram =>
              have hdatagram := Script.Reply.isDatagram_of_receive hreceive
              rw [advance_receiving_datagram hreplies hreceive, resume, run_bind,
                receiveBehind_datagram hreplies hdatagram]
              by_cases hcomplete : (answering seq (reply.messages c.kernel.lastSeq)).2
              · simp only [if_pos hcomplete, run_resume_ofResponse]
              · simp only [if_neg hcomplete, resume, run_bind]
  | ended result => rfl

end RouteControl.Connection
