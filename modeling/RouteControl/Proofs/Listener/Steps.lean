import Mathlib.Logic.Relation
import RouteControl.Proofs.Listener.Course

/-!
# Steps of a listener

A listener one step at a time (`Step`): it receives a reply, waits out a failure, or is stopped.
Whenever it awaits something it may be stopped, and others may change what they share with the
handler.  A datagram is handed on in one step, so that a listener that is stopped has handed on
whole datagrams (`accounts_reaches`).  What `start` comes to is reached in such steps
(`reaches_start`).
-/

namespace RouteControl.Listener

variable {σ : Type}

inductive Phase where
  | receiving
  | waiting
  | closed
  | stopped
  deriving DecidableEq, Repr

/-- Whether a listener awaits something, and others are given the chance to act. -/
def Phase.awaits : Phase → Bool
  | receiving | waiting => true
  | closed | stopped => false

/-- A listener between two steps. -/
structure Moment (σ : Type) where
  phase : Phase
  now : Duration
  state : σ
  replies : List Script.Reply

inductive Step (run : Run σ) : Moment σ → Moment σ → Prop where
  | notified {now : Duration} {state : σ} {reply : Script.Reply} {rest : List Script.Reply}
      {datagram : Bytes} (hreply : Reception.ofReply reply = .notification datagram)
      (hopen : run.handler.isClosed (run.handler.dispatch now datagram state).2 = false) :
      Step run ⟨.receiving, now, state, reply :: rest⟩
        ⟨.receiving, now, (run.handler.dispatch now datagram state).2, rest⟩
  | closed {now : Duration} {state : σ} {reply : Script.Reply} {rest : List Script.Reply}
      {datagram : Bytes} (hreply : Reception.ofReply reply = .notification datagram)
      (hclosed : run.handler.isClosed (run.handler.dispatch now datagram state).2 = true) :
      Step run ⟨.receiving, now, state, reply :: rest⟩
        ⟨.closed, now, (run.handler.dispatch now datagram state).2, rest⟩
  | passed {now : Duration} {state : σ} {reply : Script.Reply} {rest : List Script.Reply}
      (hreply : Reception.ofReply reply = .ignored) :
      Step run ⟨.receiving, now, state, reply :: rest⟩ ⟨.receiving, now, state, rest⟩
  | failed {now : Duration} {state : σ} {reply : Script.Reply} {rest : List Script.Reply}
      (hreply : Reception.ofReply reply = .failed) :
      Step run ⟨.receiving, now, state, reply :: rest⟩ ⟨.waiting, now, state, rest⟩
  | woken {now : Duration} {state : σ} {replies : List Script.Reply} :
      Step run ⟨.waiting, now, state, replies⟩ ⟨.receiving, now + run.backoff, state, replies⟩
  | disturbed {phase : Phase} {now : Duration} {state : σ} {replies : List Script.Reply}
      (hawaits : phase.awaits) :
      Step run ⟨phase, now, state, replies⟩ ⟨phase, now, run.idle now state, replies⟩
  | stopped {phase : Phase} {now : Duration} {state : σ} {replies : List Script.Reply}
      (hawaits : phase.awaits) :
      Step run ⟨phase, now, state, replies⟩ ⟨.stopped, now, state, replies⟩

/-- What a listener may come to, from one moment on. -/
abbrev Reaches (run : Run σ) : Moment σ → Moment σ → Prop := Relation.ReflTransGen (Step run)

def Moment.initial (state : σ) (replies : List Script.Reply) : Moment σ :=
  ⟨.receiving, .zero, state, replies⟩

variable {run : Run σ} {now : Duration} {state : σ} {reply : Script.Reply}
  {replies rest : List Script.Reply}

theorem not_step_of_not_awaits {m m' : Moment σ} (h : m.phase.awaits = false) : ¬Step run m m' := by
  rintro (_ | _ | _ | _ | _ | ⟨hawaits⟩ | ⟨hawaits⟩)
  all_goals simp_all [Phase.awaits]

/-! ## What is handed on -/

theorem dispatch_of_ofReply {datagram : Bytes}
    (h : Reception.ofReply reply = .notification datagram)
    (handler : Handler σ) (now : Duration) (state : σ) :
    (handler.dispatch now datagram state).2 = take handler now reply.events state := by
  have hevents : reply.events = (Message.read datagram).messages.filterMap Event.ofMessage? := by
    rcases reply_cases reply with hnotification | hcostly | ⟨hignored, hcostly⟩
    · obtain ⟨_, hreply, hevents⟩ := ofReply_of_isNotification hnotification
      rw [h] at hreply
      cases hreply
      exact hevents
    · rw [ofReply_of_isCostly hcostly] at h
      cases h
    · rw [ofReply_of_other hignored hcostly] at h
      cases h
  rw [Handler.dispatch, Handler.foldl_take, hevents]
  rfl

private theorem events_of_ofReply
    (h : ∀ datagram, Reception.ofReply reply ≠ .notification datagram) :
    reply.events = [] := by
  refine Script.Reply.events_of_not_isNotification (Bool.eq_false_iff.2 fun hnotification => ?_)
  obtain ⟨datagram, hreply, -⟩ := ofReply_of_isNotification hnotification
  exact h datagram hreply

private theorem not_isCostly_of_ofReply (h : Reception.ofReply reply ≠ .failed) :
    reply.isCostly = false :=
  Bool.eq_false_iff.2 fun hcostly => h (ofReply_of_isCostly hcostly)

private theorem isCostly_of_ofReply (h : Reception.ofReply reply = .failed) : reply.isCostly := by
  rcases reply_cases reply with hnotification | hcostly | ⟨hignored, hcostly⟩
  · obtain ⟨datagram, hreply, -⟩ := ofReply_of_isNotification hnotification
    rw [hreply] at h
    cases h
  · exact hcostly
  · rw [ofReply_of_other hignored hcostly] at h
    cases h

private theorem add_ofMilliseconds (m n : Nat) :
    Duration.ofMilliseconds m + Duration.ofMilliseconds n = Duration.ofMilliseconds (m + n) :=
  congrArg Duration.mk (Nat.add_mul m n 1000000).symm

/-- When the next reply is received. -/
def Moment.due (run : Run σ) (m : Moment σ) : Duration :=
  if m.phase = .waiting then m.now + run.backoff else m.now

/-- The log holds what these replies brought, and the clock stands accordingly. -/
structure Accounts (run : Run σ) (taken : List Script.Reply)
    (m : Moment (σ × List (Duration × Event))) : Prop where
  events : m.state.2.map Prod.snd = taken.flatMap Script.Reply.events
  log : ∀ backoff, run.backoff = .ofMilliseconds backoff → m.state.2 = deliveries backoff 0 taken
  due : ∀ backoff, run.backoff = .ofMilliseconds backoff → m.phase.awaits →
    m.due run.logged = .ofMilliseconds (taken.countP Script.Reply.isCostly * backoff)

variable {taken : List Script.Reply} {log : List (Duration × Event)}

theorem accounts_initial (run : Run σ) (state : σ) (replies : List Script.Reply) :
    Accounts run [] (.initial (state, []) replies) where
  events := rfl
  log _ _ := rfl
  due := by
    intro backoff _ _
    rw [List.countP_nil, Nat.zero_mul]
    rfl

theorem Accounts.notified {datagram : Bytes}
    (hreply : Reception.ofReply reply = .notification datagram)
    (h : Accounts run taken ⟨.receiving, now, (state, log), reply :: rest⟩) (phase : Phase)
    (hphase : phase ≠ .waiting) :
    Accounts run (taken ++ [reply]) ⟨phase, now,
      (run.logged.handler.dispatch now datagram (state, log)).2, rest⟩ := by
  have hfree : reply.isCostly = false := not_isCostly_of_ofReply (by simp [hreply])
  rw [dispatch_of_ofReply hreply, take_logged]
  constructor
  · have hevents : log.map Prod.snd = taken.flatMap Script.Reply.events := h.events
    simp [hevents, Function.comp_def]
  · intro backoff hbackoff
    have hlog : log = deliveries backoff 0 taken := h.log backoff hbackoff
    have hnow : now = .ofMilliseconds (taken.countP Script.Reply.isCostly * backoff) :=
      h.due backoff hbackoff rfl
    rw [deliveries_append, ← hlog, Nat.zero_add, deliveries, deliveries, List.append_nil, ← hnow]
  · intro backoff hbackoff _
    have hnow : now = .ofMilliseconds (taken.countP Script.Reply.isCostly * backoff) :=
      h.due backoff hbackoff rfl
    rw [Moment.due, if_neg hphase, List.countP_append, List.countP_singleton, hfree]
    exact hnow

theorem Accounts.silent (hevents : reply.events = [])
    (h : Accounts run taken ⟨.receiving, now, (state, log), reply :: rest⟩) (phase : Phase)
    (hcost : ∀ backoff, run.backoff = .ofMilliseconds backoff →
      now = .ofMilliseconds (taken.countP Script.Reply.isCostly * backoff) →
        Moment.due run.logged ⟨phase, now, (state, log), rest⟩ =
          .ofMilliseconds ((taken ++ [reply]).countP Script.Reply.isCostly * backoff)) :
    Accounts run (taken ++ [reply]) ⟨phase, now, (state, log), rest⟩ where
  events := by
    have hlog : log.map Prod.snd = taken.flatMap Script.Reply.events := h.events
    simp [hlog, hevents]
  log := by
    intro backoff hbackoff
    have hlog : log = deliveries backoff 0 taken := h.log backoff hbackoff
    rw [deliveries_append, ← hlog, deliveries, deliveries, hevents, List.map_nil,
      List.append_nil, List.append_nil]
  due backoff hbackoff _ := hcost backoff hbackoff (h.due backoff hbackoff rfl)

theorem accounts_step {m m' : Moment (σ × List (Duration × Event))} (hstep : Step run.logged m m')
    (h : Accounts run taken m) :
    ∃ more, m.replies = more ++ m'.replies ∧ Accounts run (taken ++ more) m' := by
  cases hstep with
  | @notified now state reply rest datagram hreply hopen =>
      exact ⟨[reply], rfl, h.notified hreply .receiving nofun⟩
  | @closed now state reply rest datagram hreply hclosed =>
      exact ⟨[reply], rfl, h.notified hreply .closed nofun⟩
  | @passed now state reply rest hreply =>
      have hevents : reply.events = [] := events_of_ofReply (by simp [hreply])
      refine ⟨[reply], rfl, h.silent hevents .receiving fun backoff _ hnow => ?_⟩
      have hfree : reply.isCostly = false := not_isCostly_of_ofReply (by simp [hreply])
      rw [List.countP_append, List.countP_singleton, hfree]
      exact hnow
  | @failed now state reply rest hreply =>
      have hevents : reply.events = [] := events_of_ofReply (by simp [hreply])
      refine ⟨[reply], rfl, h.silent hevents .waiting fun backoff hbackoff hnow => ?_⟩
      have hwake : now + run.backoff =
          .ofMilliseconds ((taken.countP Script.Reply.isCostly + 1) * backoff) := by
        rw [hnow, hbackoff, add_ofMilliseconds, Nat.add_mul, Nat.one_mul]
      rw [List.countP_append, List.countP_singleton, if_pos (isCostly_of_ofReply hreply)]
      exact hwake
  | woken => exact ⟨[], rfl, by rw [List.append_nil]; exact ⟨h.events, h.log, h.due⟩⟩
  | disturbed hawaits => exact ⟨[], rfl, by rw [List.append_nil]; exact ⟨h.events, h.log, h.due⟩⟩
  | stopped hawaits =>
      refine ⟨[], rfl, ?_⟩
      rw [List.append_nil]
      exact ⟨h.events, h.log, nofun⟩

theorem accounts_reaches {m m' : Moment (σ × List (Duration × Event))}
    (hreaches : Reaches run.logged m m') (h : Accounts run taken m) :
    ∃ more, m.replies = more ++ m'.replies ∧ Accounts run (taken ++ more) m' := by
  induction hreaches with
  | refl => exact ⟨[], rfl, by rwa [List.append_nil]⟩
  | tail _ hstep ih =>
      obtain ⟨front, hfront, haccounts⟩ := ih
      obtain ⟨more, hmore, hafter⟩ := accounts_step hstep haccounts
      refine ⟨front ++ more, by rw [hfront, hmore, List.append_assoc], ?_⟩
      rwa [List.append_assoc] at hafter

/-! ## The listener as it runs -/

theorem reaches_wait (run : Run σ) (now : Duration) (state : σ) (replies : List Script.Reply) :
    Reaches run ⟨.waiting, now, state, replies⟩ ⟨.waiting, now, run.wait now state, replies⟩ := by
  rw [Run.wait]
  split
  · exact .refl
  · exact .single (.disturbed rfl)

theorem reaches_listen (run : Run σ) (now : Duration) (state : σ) (replies : List Script.Reply) :
    ∃ m, Reaches run ⟨.receiving, now, state, replies⟩ m ∧
      m.state = (listen run now state replies).state ∧
      m.replies = (listen run now state replies).replies ∧
      ((listen run now state replies).ended = true ↔ m.phase = .closed) := by
  induction replies generalizing now state with
  | nil => exact ⟨_, .single (.disturbed rfl), rfl, rfl, by simp [listen]⟩
  | cons reply rest ih =>
      rw [listen]
      cases hreply : Reception.ofReply reply with
      | notification datagram =>
          by_cases hclosed : run.handler.isClosed (run.handler.dispatch now datagram state).2
          · exact ⟨_, .single (.closed hreply hclosed), by simp [hclosed]⟩
          · obtain ⟨m, hreaches, hm⟩ := ih now (run.handler.dispatch now datagram state).2
            rw [Bool.not_eq_true] at hclosed
            exact ⟨m, .head (.notified hreply hclosed) hreaches, by simpa [hclosed] using hm⟩
      | ignored =>
          obtain ⟨m, hreaches, hm⟩ := ih now state
          exact ⟨m, .head (.passed hreply) hreaches, hm⟩
      | failed =>
          have hwait := reaches_wait run now state rest
          by_cases hgoes : run.goesOn (now + run.backoff)
          · obtain ⟨m, hreaches, hm⟩ := ih (now + run.backoff) (run.wait now state)
            exact ⟨m, .head (.failed hreply) (hwait.trans (.head .woken hreaches)),
              by simpa [hgoes] using hm⟩
          · exact ⟨_, .head (.failed hreply) (hwait.trans (.single (.stopped rfl))),
              by simp [hgoes]⟩

theorem reaches_start (run : Run σ) (state : σ) (replies : List Script.Reply) :
    ∃ m, Reaches run (.initial state replies) m ∧
      m.state = (start run state replies).state ∧
      m.replies = (start run state replies).replies ∧
      ((start run state replies).ended = true ↔ m.phase = .closed) := by
  rw [start]
  split
  · exact reaches_listen run .zero state replies
  · exact ⟨_, .single (.stopped rfl), rfl, rfl, by simp⟩

end RouteControl.Listener
