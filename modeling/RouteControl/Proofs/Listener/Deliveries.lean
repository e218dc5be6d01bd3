import RouteControl.Listener
import RouteControl.Proofs.Kernel.Script

/-!
# Deliveries

What the replies to a listener bring, told without a handler: the events in a datagram from the
kernel, and nothing in any other reply (`events_of_not_isNotification`).  What a handler is handed
is noted by a run that keeps a log beside the state (`Run.logged`); the log does not change what the
run does, and one reply adds to it the events that the reply brings (`handle_logged`).
-/

namespace RouteControl

namespace Script.Reply

/-- The events in a datagram from the kernel, up to the first message that is not well formed. -/
def events (reply : Script.Reply) : List Event := (reply.messages 0).filterMap Event.ofMessage?

def isNotification (reply : Script.Reply) : Bool :=
  match reply.receive 0 with
  | .ok datagram => datagram.isFromKernel
  | .error _ => false

def isCostly : Script.Reply → Bool
  | failure kind => !kind.isTransient
  | overflow _ _ => true
  | records _ _ | raw _ _ => false

theorem events_of_not_isNotification {reply : Script.Reply} (h : reply.isNotification = false) :
    reply.events = [] := by
  rw [events, messages]
  rw [isNotification] at h
  split
  · simp_all
  · rfl

end Script.Reply

namespace Handler

variable {σ : Type} {h : Handler σ}

theorem foldl_take (now : Duration) (messages : List Message) (count : Nat) (state : σ) :
    messages.foldl (h.take now) (count, state) =
      (count + (messages.filterMap Event.ofMessage?).length,
        (messages.filterMap Event.ofMessage?).foldl (fun s e => h.onEvent now e s) state) := by
  induction messages generalizing count state with
  | nil => rfl
  | cons m ms ih =>
      rw [List.foldl_cons, take]
      cases hevent : Event.ofMessage? m with
      | none => rw [ih, List.filterMap_cons_none hevent]
      | some e =>
          rw [ih, List.filterMap_cons_some hevent, List.length_cons, List.foldl_cons]
          congr 1
          omega

end Handler

namespace Listener

variable {σ : Type} {run : Run σ} {reply : Script.Reply} {now : Duration} {state : σ}

theorem ofReply_of_isNotification (h : reply.isNotification) :
    ∃ datagram, Reception.ofReply reply = .notification datagram ∧
      reply.events = (Message.read datagram).messages.filterMap Event.ofMessage? := by
  rw [Script.Reply.isNotification] at h
  rw [Script.Reply.events, Script.Reply.messages, Reception.ofReply]
  split at h
  · rename_i datagram hreceive
    exact ⟨datagram.bytes, by simp [hreceive, h]⟩
  · cases h

theorem ofReply_of_isCostly (h : reply.isCostly) : Reception.ofReply reply = .failed := by
  cases reply with
  | records | raw => cases h
  | overflow => rfl
  | failure kind =>
      rw [Script.Reply.isCostly, Bool.not_eq_true'] at h
      simp [Reception.ofReply, Script.Reply.receive, h]

theorem not_isNotification_of_isCostly (h : reply.isCostly) : reply.isNotification = false := by
  cases reply with
  | records | raw => cases h
  | failure | overflow => rfl

theorem ofReply_of_other (h : reply.isNotification = false) (hcostly : reply.isCostly = false) :
    Reception.ofReply reply = .ignored := by
  cases reply with
  | overflow => cases hcostly
  | failure kind =>
      rw [Script.Reply.isCostly, Bool.not_eq_false'] at hcostly
      simp [Reception.ofReply, Script.Reply.receive, hcostly]
  | records sender rs =>
      rw [Script.Reply.isNotification] at h
      simp_all [Reception.ofReply, Script.Reply.receive]
  | raw sender bytes =>
      rw [Script.Reply.isNotification] at h
      simp_all [Reception.ofReply, Script.Reply.receive]

/-! ## Handling one reply -/

/-- The time and the state after a reply, whether or not the handler wants more. -/
def handle (run : Run σ) (moment : Duration × σ) (reply : Script.Reply) : Duration × σ :=
  match Reception.ofReply reply with
  | .notification datagram => (moment.1, (run.handler.dispatch moment.1 datagram moment.2).2)
  | .ignored => moment
  | .failed => (moment.1 + run.backoff, run.wait moment.1 moment.2)

def take (h : Handler σ) (now : Duration) (events : List Event) (state : σ) : σ :=
  events.foldl (fun s e => h.onEvent now e s) state

theorem handle_of_isNotification (h : reply.isNotification) :
    handle run (now, state) reply = (now, take run.handler now reply.events state) := by
  obtain ⟨datagram, hreception, hevents⟩ := ofReply_of_isNotification h
  simp only [handle, hreception, hevents, Handler.dispatch, Handler.foldl_take, take]

theorem handle_of_isCostly (h : reply.isCostly) :
    handle run (now, state) reply = (now + run.backoff, run.wait now state) := by
  simp only [handle, ofReply_of_isCostly h]

theorem handle_of_other (h : reply.isNotification = false) (hcostly : reply.isCostly = false) :
    handle run (now, state) reply = (now, state) := by
  simp only [handle, ofReply_of_other h hcostly]

theorem reply_cases (reply : Script.Reply) :
    reply.isNotification ∨ reply.isCostly ∨
      reply.isNotification = false ∧ reply.isCostly = false := by
  by_cases hcostly : reply.isCostly
  · exact .inr (.inl hcostly)
  · by_cases hnotification : reply.isNotification
    · exact .inl hnotification
    · exact .inr (.inr ⟨by simpa using hnotification, by simpa using hcostly⟩)

/-! ## Logs -/

/-- The run that notes, beside the state, which events the handler is handed, and when. -/
def Run.logged (run : Run σ) : Run (σ × List (Duration × Event)) where
  handler := {
    onEvent now e s := (run.handler.onEvent now e s.1, s.2 ++ [(now, e)])
    isClosed s := run.handler.isClosed s.1 }
  backoff := run.backoff
  stop := run.stop
  idle now s := (run.idle now s.1, s.2)

variable {log : List (Duration × Event)}

theorem take_logged (events : List Event) (state : σ) (log : List (Duration × Event)) :
    take run.logged.handler now events (state, log) =
      (take run.handler now events state, log ++ events.map fun e => (now, e)) := by
  induction events generalizing state log with
  | nil => simp [take]
  | cons e rest ih =>
      have hrest := ih (run.handler.onEvent now e state) (log ++ [(now, e)])
      rw [List.append_assoc] at hrest
      exact hrest

theorem wait_logged :
    run.logged.wait now (state, log) = (run.wait now state, log) := by
  by_cases hzero : run.backoff = .zero <;> simp [Run.wait, Run.logged, hzero]

theorem handle_logged :
    handle run.logged (now, state, log) reply =
      ((handle run (now, state) reply).1, (handle run (now, state) reply).2,
        log ++ reply.events.map fun e => (now, e)) := by
  rcases reply_cases reply with hnotification | hcostly | ⟨hignored, hcostly⟩
  · rw [handle_of_isNotification hnotification, handle_of_isNotification hnotification,
      take_logged]
  · rw [Script.Reply.events_of_not_isNotification (not_isNotification_of_isCostly hcostly),
      List.map_nil, List.append_nil, handle_of_isCostly hcostly, handle_of_isCostly hcostly,
      wait_logged]
    rfl
  · rw [Script.Reply.events_of_not_isNotification hignored, List.map_nil, List.append_nil,
      handle_of_other hignored hcostly, handle_of_other hignored hcostly]

/-- What the replies bring, each event with the time at which it is handed on: there is one backoff,
of so many milliseconds, for each failure before it. -/
def deliveries (backoff : Nat) : Nat → List Script.Reply → List (Duration × Event)
  | _, [] => []
  | failures, reply :: rest =>
    (reply.events.map fun e => (.ofMilliseconds (failures * backoff), e)) ++
      deliveries backoff (failures + if reply.isCostly then 1 else 0) rest

theorem deliveries_append (backoff failures : Nat) (front back : List Script.Reply) :
    deliveries backoff failures (front ++ back) =
      deliveries backoff failures front ++
        deliveries backoff (failures + front.countP Script.Reply.isCostly) back := by
  induction front generalizing failures with
  | nil => rfl
  | cons reply rest ih =>
      have hcount : failures + (if reply.isCostly then 1 else 0) +
          rest.countP Script.Reply.isCostly =
            failures + (reply :: rest).countP Script.Reply.isCostly := by
        rw [List.countP_cons]
        omega
      rw [List.cons_append, deliveries, ih, hcount, deliveries, List.append_assoc]

end Listener

end RouteControl
