import RouteControl.Connection
import RouteControl.Proofs.Draft.Header

/-!
# Running calls

What one call does to a connection, as equations about `run`.  A message that the kernel takes is
noted, and its number becomes the one that the kernel answers to (`Kernel.accepting`).  One
transmission is refused, or comes to what is gathered after it (`run_transmit_of_refusal`,
`run_transmit_of_complete`, `run_transmit_of_failed`, `run_transmit_of_silence`).  A request takes
the next number and transmits (`run_request`).
-/

namespace RouteControl

namespace Kernel

variable {k : Kernel} {message : Bytes}

/-- The number that the kernel answers to once it was sent a message. -/
def stamp (message : Bytes) (k : Kernel) : UInt32 :=
  match MessageHeader.decode message with
  | .ok h => h.seq
  | .error _ => k.lastSeq

def accepting (message : Bytes) (k : Kernel) : Kernel :=
  { k with sent := k.sent ++ [message], lastSeq := k.stamp message }

theorem send_of_ready (h : k.sendFailure = none) : k.send message = .ok (k.accepting message) := by
  cases k
  cases h
  rfl

theorem send_of_refusal {kind : IoKind} (h : k.sendFailure = some kind) :
    k.send message = .error (.transmitFailure kind) := by
  rw [send, h]

theorem stamp_of_decode {h : MessageHeader} (hdecode : MessageHeader.decode message = .ok h) :
    k.stamp message = h.seq := by
  rw [stamp, hdecode]

end Kernel

namespace Connection

variable {α β : Type} {c : Connection} {message : Bytes} {seq : UInt32} {attempts : Nat}
  {left : List Script.Reply}

theorem run_bind (call : Call α) (next : α → Call β) (c : Connection) :
    c.run (call >>= next) =
      match c.run call with
      | (.ok a, c) => c.run (next a)
      | (.error e, c) => (.error e, c) := by
  simp only [run, bind, EStateM.bind, EStateM.run]
  cases call c <;> rfl

/-- A call in two parts succeeds where the first part does, and then the second. -/
theorem exists_of_run_bind_ok {call : Call α} {next : α → Call β} {b : β} {last : Connection}
    (h : c.run (call >>= next) = (.ok b, last)) :
    ∃ a middle, c.run call = (.ok a, middle) ∧ middle.run (next a) = (.ok b, last) := by
  rw [run_bind] at h
  rcases hcall : c.run call with ⟨_ | a, middle⟩ <;> rw [hcall] at h
  · cases h
  · exact ⟨a, middle, rfl, h⟩

theorem run_bind_return (call : Call α) (f : α → β) (c : Connection) :
    c.run (do return f (← call)) = ((c.run call).1.map f, (c.run call).2) := by
  rw [run_bind]
  rcases c.run call with ⟨_ | _, _⟩ <;> rfl

theorem run_ofExcept (result : Except Error α) (c : Connection) :
    c.run (ofExcept result) = (result, c) := by
  cases result <;> rfl

/-! ## Transmissions -/

def sending (message : Bytes) (c : Connection) : Connection :=
  { c with kernel := c.kernel.accepting message }

/-- The connection whose kernel took a message so many times. -/
def resending (message : Bytes) : Nat → Connection → Connection
  | 0, c => c
  | n + 1, c => resending message n (c.sending message)

/-- Receiving over the replies to come, when the kernel was sent a message before. -/
abbrev gathered (seq : UInt32) (message : Bytes) (c : Connection) :
    Gathered × List Script.Reply :=
  gather seq (c.kernel.stamp message) c.kernel.replies

theorem run_transmit_zero :
    c.run (transmit message seq 0) =
      (.error (.retryExhausted c.settings.transmissions), c) := rfl

theorem run_transmit_of_refusal {kind : IoKind} (h : c.kernel.sendFailure = some kind) :
    c.run (transmit message seq (attempts + 1)) = (.error (.transmitFailure kind), c) := by
  rw [transmit, run_bind]
  simp only [run, EStateM.run, send, Kernel.send_of_refusal h]

theorem run_transmit_of_ready (h : c.kernel.sendFailure = none) :
    c.run (transmit message seq (attempts + 1)) =
      (c.sending message).run do
        let response ← receive seq
        if response.leadingError? = some busyCode then transmit message seq attempts
        else return response := by
  rw [transmit, run_bind]
  simp only [run, EStateM.run, send, Kernel.send_of_ready h]
  rfl

theorem run_transmit_of_complete (h : c.kernel.sendFailure = none) {messages : List Message}
    (hgather : c.gathered seq message = (.complete messages, left)) :
    c.run (transmit message seq (attempts + 1)) =
      if (Response.ofMessages messages).leadingError? = some busyCode then
        ((c.sending message).withReplies left).run (transmit message seq attempts)
      else (.ok (.ofMessages messages), (c.sending message).withReplies left) := by
  have hreceive : (c.sending message).run (receive seq) =
      (.ok (.ofMessages messages), (c.sending message).withReplies left) := by
    simp only [run, EStateM.run, receive, sending, Kernel.accepting, hgather]
  rw [run_transmit_of_ready h, run_bind, hreceive]
  simp only
  split <;> rfl

theorem run_transmit_of_failed (h : c.kernel.sendFailure = none) {e : Error}
    (hgather : c.gathered seq message = (.failed e, left)) :
    c.run (transmit message seq (attempts + 1)) =
      (.error e, (c.sending message).withReplies left) := by
  rw [run_transmit_of_ready h, run_bind]
  simp only [run, EStateM.run, receive, sending, Kernel.accepting, hgather]

theorem run_transmit_of_silence (h : c.kernel.sendFailure = none)
    (hgather : c.gathered seq message = (.silence, left)) :
    c.run (transmit message seq (attempts + 1)) =
      (.error (.timeout c.settings.timeout),
        { (c.sending message).withReplies left with clock := c.clock + c.settings.timeout }) := by
  rw [run_transmit_of_ready h, run_bind]
  simp only [run, EStateM.run, receive, sending, Kernel.accepting, hgather]

/-! ## Requests -/

def numbered (d : Draft) (c : Connection) : Bytes :=
  ((d.withSeq c.nextSeq).withPortId c.kernel.portId).bytes

def numbering (c : Connection) : Connection := { c with nextSeq := c.nextSeq + 1 }

theorem run_request (d : Draft) (c : Connection) :
    c.run (request d) =
      c.numbering.run (transmit (c.numbered d) c.nextSeq c.settings.transmissions) := rfl

theorem stamp_numbered {d : Draft} (h : d.WellFormed) (c : Connection) (k : Kernel) :
    k.stamp (c.numbered d) = c.nextSeq :=
  Kernel.stamp_of_decode (Draft.decode_bytes_withSeq_withPortId h ..)

/-! ## What transmissions leave alone -/

theorem resending_succ (n : Nat) (c : Connection) :
    c.resending message (n + 1) = (c.resending message n).sending message := by
  induction n generalizing c with
  | zero => rfl
  | succ n ih => exact ih (c.sending message)

@[simp] theorem resending_sent (n : Nat) (c : Connection) :
    (c.resending message n).kernel.sent = c.kernel.sent ++ List.replicate n message := by
  induction n with
  | zero => simp [resending]
  | succ n ih => simp [resending_succ, sending, Kernel.accepting, ih, List.replicate_succ']

theorem resending_withReplies (n : Nat) (c : Connection) :
    (c.withReplies left).resending message n = (c.resending message n).withReplies left := by
  induction n generalizing c with
  | zero => rfl
  | succ n ih => exact ih (c.sending message)

theorem sending_resending_withReplies (n : Nat) (c : Connection) :
    ((c.resending message n).withReplies left).sending message =
      (c.resending message (n + 1)).withReplies left := by
  rw [resending_succ]
  rfl

@[simp] theorem resending_settings (n : Nat) (c : Connection) :
    (c.resending message n).settings = c.settings := by
  induction n with
  | zero => rfl
  | succ n ih => rw [resending_succ, ← ih]; rfl

@[simp] theorem resending_sendFailure (n : Nat) (c : Connection) :
    (c.resending message n).kernel.sendFailure = c.kernel.sendFailure := by
  induction n with
  | zero => rfl
  | succ n ih => rw [resending_succ, ← ih]; rfl

theorem ready_resending (h : c.kernel.sendFailure = none) (n : Nat) :
    ((c.resending message n).withReplies left).kernel.sendFailure = none :=
  (resending_sendFailure n c).trans h

end Connection

end RouteControl
