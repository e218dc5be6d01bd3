import RouteControl.Listener.Stream
import RouteControl.Proofs.Attribute.Framing
import RouteControl.Proofs.Listener.Steps

/-!
# Delivery

What a listener hands to its handler, whatever fails and whoever else sends datagrams.  What is
passed over and what fails brings no event and ends nothing.  It may still matter to a handler that
others influence, for while a failure is waited out they get the chance to act: a consumer may drop
its stream, and the listener ends sooner (`failure_changes_deliveries`).  Where the handler's wish
depends on the events alone, it does not matter (`ByEvents.events_listen`).
-/

namespace RouteControl.Listener

variable {σ τ : Type} {run : Run σ} {now : Duration} {state : σ} {log : List (Duration × Event)}
  {replies : List Script.Reply}

theorem listen_logged (run : Run σ) (now : Duration) (state : σ) (log : List (Duration × Event))
    (replies : List Script.Reply) :
    (listen run.logged now (state, log) replies).state.1 = (listen run now state replies).state ∧
      (listen run.logged now (state, log) replies).replies =
        (listen run now state replies).replies ∧
      (listen run.logged now (state, log) replies).ended =
        (listen run now state replies).ended := by
  induction replies generalizing now state log with
  | nil => exact ⟨rfl, rfl, rfl⟩
  | cons reply rest ih =>
      rw [listen, listen]
      cases hreply : Reception.ofReply reply with
      | notification datagram =>
          have hclosed : ∀ s,
              run.logged.handler.isClosed (s, log ++ reply.events.map fun e => (now, e)) =
                run.handler.isClosed s := fun _ => rfl
          simp only [dispatch_of_ofReply hreply, take_logged, hclosed]
          split
          · exact ⟨rfl, rfl, rfl⟩
          · exact ih _ _ _
      | ignored => exact ih _ _ _
      | failed =>
          have hgoes : run.logged.goesOn (now + run.logged.backoff) =
              run.goesOn (now + run.backoff) := rfl
          simp only [wait_logged, hgoes]
          split
          · exact ih _ _ _
          · exact ⟨rfl, rfl, rfl⟩

theorem start_logged (run : Run σ) (state : σ) (replies : List Script.Reply) :
    (start run.logged (state, []) replies).state.1 = (start run state replies).state ∧
      (start run.logged (state, []) replies).replies = (start run state replies).replies ∧
      (start run.logged (state, []) replies).ended = (start run state replies).ended := by
  have hgoes : run.logged.goesOn .zero = run.goesOn .zero := rfl
  rw [start, start, hgoes]
  split
  · exact listen_logged run .zero state [] replies
  · exact ⟨rfl, rfl, rfl⟩

/-! ## What is passed over -/

/-- Whether a reply is one that a listener hands on or waits out. -/
def isHeeded (reply : Script.Reply) : Bool := reply.isNotification || reply.isCostly

/-- What is passed over makes no difference, to whatever handler. -/
theorem state_listen_filter (run : Run σ) (now : Duration) (state : σ)
    (replies : List Script.Reply) :
    (listen run now state (replies.filter isHeeded)).state =
      (listen run now state replies).state := by
  induction replies generalizing now state with
  | nil => rfl
  | cons reply rest ih =>
      rcases reply_cases reply with hnotification | hcostly | ⟨hignored, hcostly⟩
      · obtain ⟨datagram, hreply, -⟩ := ofReply_of_isNotification hnotification
        rw [List.filter_cons_of_pos (by simp [isHeeded, hnotification]), listen, listen]
        simp only [hreply]
        split
        · rfl
        · exact ih _ _
      · rw [List.filter_cons_of_pos (by simp [isHeeded, hcostly]), listen, listen]
        simp only [ofReply_of_isCostly hcostly]
        split
        · exact ih _ _
        · rfl
      · rw [List.filter_cons_of_neg (by simp [isHeeded, hignored, hcostly]), ih, listen]
        simp only [ofReply_of_other hignored hcostly]

theorem state_start_filter (run : Run σ) (state : σ) (replies : List Script.Reply) :
    (start run state (replies.filter isHeeded)).state = (start run state replies).state := by
  rw [start, start]
  split
  · exact state_listen_filter run .zero state replies
  · rfl

/-! ## Handlers that are moved by events alone -/

/-- Whether the handler wants more depends on the events that it was handed: not on their times, and
not on what others do. -/
structure ByEvents (run : Run σ) (view : σ → τ) (step : τ → Event → τ) (closed : τ → Bool) :
    Prop where
  onEvent : ∀ now e s, view (run.handler.onEvent now e s) = step (view s) e
  idle : ∀ now s, view (run.idle now s) = view s
  isClosed : ∀ s, run.handler.isClosed s = closed (view s)

variable {view : σ → τ} {step : τ → Event → τ} {closed : τ → Bool}

def handed (step : τ → Event → τ) (closed : τ → Bool) : τ → List Script.Reply → List Event
  | _, [] => []
  | t, reply :: rest =>
    let after := reply.events.foldl step t
    reply.events ++ if closed after then [] else handed step closed after rest

theorem ByEvents.view_take (h : ByEvents run view step closed) (now : Duration)
    (events : List Event) (state : σ) :
    view (take run.handler now events state) = events.foldl step (view state) := by
  induction events generalizing state with
  | nil => rfl
  | cons e rest ih =>
      rw [List.foldl_cons, ← h.onEvent now e state]
      exact ih (run.handler.onEvent now e state)

theorem ByEvents.view_wait (h : ByEvents run view step closed) (now : Duration) (state : σ) :
    view (run.wait now state) = view state := by
  rw [Run.wait]
  split
  · rfl
  · exact h.idle now state

theorem ByEvents.events_listen (h : ByEvents run view step closed) (hstop : run.stop = none)
    (now : Duration) (state : σ) (log : List (Duration × Event)) (replies : List Script.Reply) :
    (listen run.logged now (state, log) replies).state.2.map Prod.snd =
      log.map Prod.snd ++
        handed step closed (view state) (replies.filter Script.Reply.isNotification) := by
  induction replies generalizing now state log with
  | nil => simp [listen, handed, Run.logged]
  | cons reply rest ih =>
      have hstop' : run.logged.stop = none := hstop
      rw [listen_cons hstop', handle_logged]
      rcases reply_cases reply with hnotification | hcostly | ⟨hignored, hcostly⟩
      · have hclosed : run.logged.handler.isClosed
            (take run.handler now reply.events state, log ++ reply.events.map fun e => (now, e)) =
              closed (reply.events.foldl step (view state)) :=
          (h.isClosed _).trans (congrArg closed (h.view_take now _ state))
        rw [handle_of_isNotification hnotification, List.filter_cons_of_pos hnotification, handed,
          hclosed]
        by_cases hc : closed (reply.events.foldl step (view state))
        · rw [if_pos ⟨hnotification, hc⟩, if_pos hc]
          simp [Function.comp_def]
        · rw [if_neg fun hclosing => hc hclosing.2, if_neg hc, ih, h.view_take]
          simp [Function.comp_def]
      · have hignored := not_isNotification_of_isCostly hcostly
        rw [if_neg fun hclosing => Bool.eq_false_iff.1 hignored hclosing.1, ih,
          handle_of_isCostly hcostly, h.view_wait,
          Script.Reply.events_of_not_isNotification hignored,
          List.filter_cons_of_neg (Bool.eq_false_iff.1 hignored)]
        simp
      · rw [if_neg fun hclosing => Bool.eq_false_iff.1 hignored hclosing.1, ih,
          handle_of_other hignored hcostly, Script.Reply.events_of_not_isNotification hignored,
          List.filter_cons_of_neg (Bool.eq_false_iff.1 hignored)]
        simp

theorem start_of_unstopped (hstop : run.stop = none) (state : σ) (replies : List Script.Reply) :
    start run state replies = listen run .zero state replies := by
  rw [start, Run.goesOn, hstop]
  rfl

/-- A listener that is not stopped took the replies up to the first that made it end, or all. -/
theorem closes_or_open (hstop : run.stop = none) {taken : List Script.Reply}
    (htaken : replies = taken ++ (start run.logged (state, log) replies).replies) :
    (start run.logged (state, log) replies).ended = true ∧ ClosesFirst run (.zero, state) taken ∨
      (start run.logged (state, log) replies).ended = false ∧
        StaysOpen run (.zero, state) taken ∧
          (start run.logged (state, log) replies).replies = [] := by
  have hstop' : run.logged.stop = none := hstop
  rw [start_of_unstopped hstop'] at htaken ⊢
  rcases open_or_closes run (.zero, state) replies with hopen | ⟨front, rest, rfl, hfirst⟩
  · rw [listen_of_open hstop' (staysOpen_logged.2 hopen)] at htaken ⊢
    rw [List.append_nil] at htaken
    exact .inr ⟨rfl, htaken ▸ hopen, rfl⟩
  · rw [listen_of_closes hstop' (closesFirst_logged.2 hfirst) rest] at htaken ⊢
    exact .inl ⟨rfl, List.append_cancel_right htaken ▸ hfirst⟩

/-- A listener hands on, in the order of the replies, the events of every notification that it
takes, each at one backoff for each failure before it that had to be waited out; nothing else brings
events.  If it is not stopped, it takes all replies up to the first notification after which its
handler wants no more, and then none.  What is passed over makes no difference at all; where the
handler is moved by events alone, failures make none either.  What is told of the log is told of
every run of steps, with whatever is done by others and wherever it is stopped: whole datagrams are
handed on, the first of those to come, and no step is taken behind the end. -/
theorem start_delivers (run : Run σ) (state : σ) (replies : List Script.Reply) :
    let left := start run.logged (state, []) replies
    (left.state.1 = (start run state replies).state ∧
      left.replies = (start run state replies).replies ∧
      left.ended = (start run state replies).ended) ∧
    (∃ taken, replies = taken ++ left.replies ∧
      left.state.2.map Prod.snd = taken.flatMap Script.Reply.events ∧
      (∀ backoff, run.backoff = .ofMilliseconds backoff →
        left.state.2 = deliveries backoff 0 taken) ∧
      (run.stop = none →
        left.ended = true ∧ ClosesFirst run (.zero, state) taken ∨
          left.ended = false ∧ StaysOpen run (.zero, state) taken ∧ left.replies = [])) ∧
    (∀ others : List Script.Reply, others.filter isHeeded = replies.filter isHeeded →
      (start run.logged (state, []) others).state = left.state) ∧
    (run.stop = none →
      ∀ {τ : Type} (view : σ → τ) (step : τ → Event → τ) (closed : τ → Bool),
        ByEvents run view step closed → ∀ others : List Script.Reply,
          others.filter Script.Reply.isNotification =
            replies.filter Script.Reply.isNotification →
          (start run.logged (state, []) others).state.2.map Prod.snd =
            left.state.2.map Prod.snd) ∧
    (∃ m, Reaches run.logged (.initial (state, []) replies) m ∧ m.state = left.state ∧
      m.replies = left.replies ∧ (left.ended = true ↔ m.phase = .closed)) ∧
    ∀ m, Reaches run.logged (.initial (state, []) replies) m →
      (∃ taken, replies = taken ++ m.replies ∧
        m.state.2.map Prod.snd = taken.flatMap Script.Reply.events ∧
        ∀ backoff, run.backoff = .ofMilliseconds backoff →
          m.state.2 = deliveries backoff 0 taken) ∧
      (m.phase = .closed ∨ m.phase = .stopped → ∀ m', ¬Step run.logged m m') := by
  intro left
  have hbegun := accounts_initial run state replies
  have hsteps := reaches_start run.logged (state, []) replies
  refine ⟨start_logged run state replies, ?_, ?_, ?_, hsteps, ?_⟩
  · obtain ⟨m, hreaches, hstate, hleft, -⟩ := hsteps
    obtain ⟨taken, htaken, haccounts⟩ := accounts_reaches hreaches hbegun
    rw [List.nil_append] at haccounts
    have htaken : replies = taken ++ left.replies := htaken.trans (by rw [hleft])
    have hevents := haccounts.events
    have hlog := haccounts.log
    rw [hstate] at hevents hlog
    exact ⟨taken, htaken, hevents, hlog, fun hstop => closes_or_open hstop htaken⟩
  · intro others hothers
    rw [← state_start_filter, hothers, state_start_filter]
  · intro hstop τ view step closed h others hothers
    have hstop' : run.logged.stop = none := hstop
    have hleft : left = _ := start_of_unstopped hstop' (state, []) replies
    rw [hleft, start_of_unstopped hstop', h.events_listen hstop, h.events_listen hstop, hothers]
  · intro m hreaches
    obtain ⟨taken, htaken, haccounts⟩ := accounts_reaches hreaches hbegun
    rw [List.nil_append] at haccounts
    refine ⟨⟨taken, htaken, haccounts.events, haccounts.log⟩, fun hended m' => ?_⟩
    have hawaits : m.phase.awaits = false := by
      rcases hended with hphase | hphase <;> rw [hphase] <;> rfl
    exact not_step_of_not_awaits hawaits

/-! ## Handlers that others influence -/

def newsRecord : Script.Record := { type := .newLink, flags := 0, payload := Bytes.zeros 16 }

def news : Script.Reply := .records 0 [newsRecord]

def newsEvent : Event := ⟨.added, .link ⟨0, none, 0⟩⟩

private theorem events_news : news.events = [newsEvent] := by
  have hwalk : Attribute.walk ((Bytes.zeros 16).drop LinkHeader.size) = [] := Attribute.walk_nil
  have hlink : Link.decode? (Bytes.zeros 16) = some ⟨0, none, 0⟩ := by
    simp only [Link.decode?, Attribute.record?, hwalk]
    rfl
  have hevent : Event.ofMessage? (newsRecord.message 0) = some newsEvent := by
    change (Link.decode? (Bytes.zeros 16)).map (fun l => Event.mk .added (.link l)) = _
    rw [hlink]
    rfl
  rw [Script.Reply.events, news, Script.Reply.messages_records (by decide), List.map_singleton,
    List.filterMap_cons_some hevent, List.filterMap_nil]

def oneWanted : Stream := { wanted := some 1 }

/-- While a failure is waited out, the consumer takes the event that it wants and drops the stream;
the listener ends after the next datagram.  Without the failure there is no chance for the consumer
before the last datagram, whose event is handed on as well. -/
theorem failure_changes_deliveries :
    [news, .failure .connectionReset, news, news].filter Script.Reply.isNotification =
      [news, news, news] ∧
    (start (Stream.run (.ofMilliseconds 1000) none).logged (oneWanted, [])
      [news, news, news]).state.2.map Prod.snd = [newsEvent, newsEvent, newsEvent] ∧
    (start (Stream.run (.ofMilliseconds 1000) none).logged (oneWanted, [])
      [news, .failure .connectionReset, news, news]).state.2.map Prod.snd =
        [newsEvent, newsEvent] := by
  have hnotification : news.isNotification := rfl
  have hcostly : (Script.Reply.failure .connectionReset).isCostly := rfl
  have hstop : (Stream.run (.ofMilliseconds 1000) none).logged.stop = none := rfl
  refine ⟨rfl, ?_, ?_⟩
  · rw [start_of_unstopped hstop]
    simp only [listen_cons hstop, handle_of_isNotification hnotification, events_news]
    rfl
  · rw [start_of_unstopped hstop]
    simp only [listen_cons hstop, handle_of_isNotification hnotification,
      handle_of_isCostly hcostly, events_news]
    rfl

end RouteControl.Listener
