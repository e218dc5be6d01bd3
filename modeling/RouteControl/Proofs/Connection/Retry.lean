import RouteControl.Proofs.Connection.Calls
import RouteControl.Proofs.Kernel.Script
import RouteControl.Proofs.Response.Reading

/-!
# Retries

How often a request is sent and how it ends, told from the replies to come alone (`Course`): after
each complete response that is led by the code of a busy kernel the message is sent once more, as
far as the settings allow, and after nothing else.  Every request over a kernel that takes messages
runs its course, and there is just one (`course_iff`).
-/

namespace RouteControl.Connection

variable {c : Connection} {message : Bytes} {seq : UInt32} {replies left : List Script.Reply}
  {busy : List (List Script.Reply)} {window : List Script.Reply} {result : Except Error Response}
  {attempts : Nat}

/-- Each of these runs of replies completes a response that is led by the code of a busy kernel. -/
def BusyRuns (seq : UInt32) (busy : List (List Script.Reply)) : Prop :=
  ∀ window ∈ busy, ∃ messages, Completes seq window messages ∧ Response.LedBy busyCode messages

/-- How a request of this number ends over these replies: its result, how often it is sent, and
the replies that are left.  Each time but the last it was answered by a busy kernel.  The last
response is led by another code, or by that one with no transmission left, or it is never complete:
a receive fails, a datagram is longer than the buffer, or nothing more comes. -/
inductive Course (s : Settings) (seq : UInt32) (replies : List Script.Reply) :
    Except Error Response → Nat → List Script.Reply → Prop where
  | answered {busy : List (List Script.Reply)} {window left : List Script.Reply}
      {messages : List Message} (hbusy : BusyRuns seq busy) (hroom : busy.length < s.transmissions)
      (hcompletes : Completes seq window messages) (hled : ¬Response.LedBy busyCode messages)
      (hreplies : replies = busy.flatten ++ (window ++ left)) :
      Course s seq replies (.ok (.ofMessages messages)) (busy.length + 1) left
  | exhausted {busy : List (List Script.Reply)} {left : List Script.Reply}
      (hbusy : BusyRuns seq busy) (hfull : busy.length = s.transmissions)
      (hreplies : replies = busy.flatten ++ left) :
      Course s seq replies (.error (.retryExhausted s.transmissions)) s.transmissions left
  | failed {busy : List (List Script.Reply)} {window left : List Script.Reply} {kind : IoKind}
      (hbusy : BusyRuns seq busy) (hroom : busy.length < s.transmissions)
      (hpending : Pending seq window)
      (hreplies : replies = busy.flatten ++ (window ++ .failure kind :: left)) :
      Course s seq replies (.error (.io kind)) (busy.length + 1) left
  | overflowed {busy : List (List Script.Reply)} {window left : List Script.Reply}
      {received capacity : Nat} (hbusy : BusyRuns seq busy) (hroom : busy.length < s.transmissions)
      (hpending : Pending seq window)
      (hreplies : replies = busy.flatten ++ (window ++ .overflow received capacity :: left)) :
      Course s seq replies (.error (.bufferOverflow received capacity)) (busy.length + 1) left
  | silent {busy : List (List Script.Reply)} {window : List Script.Reply}
      (hbusy : BusyRuns seq busy) (hroom : busy.length < s.transmissions)
      (hpending : Pending seq window) (hreplies : replies = busy.flatten ++ window) :
      Course s seq replies (.error (.timeout s.timeout)) (busy.length + 1) []

theorem busyRuns_nil : BusyRuns seq [] :=
  List.forall_mem_nil _

private theorem busyRuns_cons : BusyRuns seq (window :: busy) ↔
    (∃ messages, Completes seq window messages ∧ Response.LedBy busyCode messages) ∧
      BusyRuns seq busy :=
  List.forall_mem_cons

/-- The replies to come, split behind the responses of a busy kernel that are followed by another
transmission. -/
theorem exists_busyRuns (seq : UInt32) (budget : Nat) (replies : List Script.Reply) :
    ∃ busy rest, replies = busy.flatten ++ rest ∧ BusyRuns seq busy ∧
      (busy.length = budget ∨
        busy.length < budget ∧ ∀ window left messages, rest = window ++ left →
          Completes seq window messages → ¬Response.LedBy busyCode messages) := by
  induction budget generalizing replies with
  | zero => exact ⟨[], replies, rfl, busyRuns_nil, .inl rfl⟩
  | succ budget ih =>
      by_cases hbusy : ∃ window left messages, replies = window ++ left ∧
          Completes seq window messages ∧ Response.LedBy busyCode messages
      · obtain ⟨window, left, messages, rfl, hcompletes, hled⟩ := hbusy
        obtain ⟨busy, rest, rfl, hruns, hend⟩ := ih left
        refine ⟨window :: busy, rest, by simp, busyRuns_cons.2 ⟨⟨_, hcompletes, hled⟩, hruns⟩, ?_⟩
        simpa using hend
      · refine ⟨[], replies, rfl, busyRuns_nil, .inr ⟨Nat.zero_lt_succ _, ?_⟩⟩
        intro window left messages hreplies hcompletes hled
        exact hbusy ⟨window, left, messages, hreplies, hcompletes, hled⟩

theorem course_total (s : Settings) (seq : UInt32) (replies : List Script.Reply) :
    ∃ result attempts left, Course s seq replies result attempts left := by
  obtain ⟨busy, rest, hreplies, hbusy, hfull | ⟨hroom, hrest⟩⟩ :=
    exists_busyRuns seq s.transmissions replies
  · exact ⟨_, _, _, .exhausted hbusy hfull hreplies⟩
  · rcases replies_cases seq rest with
      ⟨window, left, messages, rfl, hcompletes⟩ | ⟨window, reply, left, rfl, hpending, hreply⟩ |
        hpending
    · exact ⟨_, _, _, .answered hbusy hroom hcompletes (hrest _ _ _ rfl hcompletes) hreplies⟩
    · cases reply with
      | records => simp [Script.Reply.isDatagram] at hreply
      | raw => simp [Script.Reply.isDatagram] at hreply
      | failure kind => exact ⟨_, _, _, .failed hbusy hroom hpending hreplies⟩
      | overflow => exact ⟨_, _, _, .overflowed hbusy hroom hpending hreplies⟩
    · exact ⟨_, _, _, .silent hbusy hroom hpending hreplies⟩

/-! ## Transmissions that run a course -/

section

variable (hready : c.kernel.sendFailure = none) (hstamp : ∀ k : Kernel, k.stamp message = seq)

include hready hstamp

theorem run_transmit_of_busy {messages : List Message} (hcompletes : Completes seq window messages)
    (hled : Response.LedBy busyCode messages) (hreplies : c.kernel.replies = window ++ left) :
    c.run (transmit message seq (attempts + 1)) =
      ((c.sending message).withReplies left).run (transmit message seq attempts) := by
  have hgather : c.gathered seq message = (.complete messages, left) := by
    rw [gathered, hstamp, hreplies, gather_of_completes hcompletes]
  rw [run_transmit_of_complete hready hgather,
    if_pos ((Response.leadingError?_eq_some_iff hcompletes.wellFormed _).2 hled)]

theorem run_transmit_of_busyRuns (hbusy : BusyRuns seq busy)
    (hreplies : c.kernel.replies = busy.flatten ++ left) :
    c.run (transmit message seq (busy.length + attempts)) =
      ((c.resending message busy.length).withReplies left).run (transmit message seq attempts) := by
  induction busy generalizing c with
  | nil =>
      obtain rfl : c.kernel.replies = left := by simpa using hreplies
      rw [List.length_nil, Nat.zero_add]
      rfl
  | cons window busy ih =>
      obtain ⟨⟨messages, hcompletes, hled⟩, hbusy⟩ := busyRuns_cons.1 hbusy
      rw [List.flatten_cons, List.append_assoc] at hreplies
      have hrest :=
        ih (c := (c.sending message).withReplies (busy.flatten ++ left)) hready hbusy rfl
      rw [List.length_cons, Nat.add_right_comm,
        run_transmit_of_busy hready hstamp hcompletes hled hreplies, hrest, resending_withReplies]
      rfl

/-- What comes behind the busy responses meets a connection on which the message was sent as many
times, and at least one more transmission is allowed. -/
theorem run_transmit_of_room {budget : Nat} (hbusy : BusyRuns seq busy)
    (hroom : busy.length < budget) (hreplies : c.kernel.replies = busy.flatten ++ left) :
    ∃ more, c.run (transmit message seq budget) =
      ((c.resending message busy.length).withReplies left).run
        (transmit message seq (more + 1)) := by
  obtain ⟨more, rfl⟩ := Nat.exists_eq_add_of_lt hroom
  refine ⟨more, ?_⟩
  rw [Nat.add_assoc, run_transmit_of_busyRuns hready hstamp hbusy hreplies]

private theorem run_transmit_of_failure {reply : Script.Reply} {e : Error}
    (hbusy : BusyRuns seq busy) (hroom : busy.length < c.settings.transmissions)
    (hpending : Pending seq window)
    (hreply : reply.receive seq = .error e)
    (hreplies : c.kernel.replies = busy.flatten ++ (window ++ reply :: left)) :
    c.run (transmit message seq c.settings.transmissions) =
      (.error e, (c.resending message (busy.length + 1)).withReplies left) := by
  obtain ⟨more, hrun⟩ := run_transmit_of_room hready hstamp hbusy hroom hreplies
  have hgather : ((c.resending message busy.length).withReplies (window ++ reply :: left)).gathered
      seq message = (.failed e, left) := by
    rw [gathered, hstamp]
    exact gather_of_pending_failure hpending hreply
  rw [hrun, run_transmit_of_failed (ready_resending hready _) hgather,
    sending_resending_withReplies]
  rfl

theorem run_transmit_of_course
    (h : Course c.settings seq c.kernel.replies result attempts left) :
    ∃ clock, c.run (transmit message seq c.settings.transmissions) =
      (result, { (c.resending message attempts).withReplies left with clock }) := by
  have hsettings : ∀ n rest,
      ((c.resending message n).withReplies rest).settings = c.settings := by
    intro n rest
    exact resending_settings n c
  cases h with
  | @answered busy window _ messages hbusy hroom hcompletes hled hreplies =>
      obtain ⟨more, hrun⟩ := run_transmit_of_room hready hstamp hbusy hroom hreplies
      have hgather : ((c.resending message busy.length).withReplies (window ++ left)).gathered
          seq message = (.complete messages, left) := by
        rw [gathered, hstamp]
        exact gather_of_completes hcompletes left
      rw [hrun, run_transmit_of_complete (ready_resending hready _) hgather,
        sending_resending_withReplies,
        if_neg (mt (Response.leadingError?_eq_some_iff hcompletes.wellFormed _).1 hled)]
      exact ⟨_, rfl⟩
  | @exhausted busy _ hbusy hfull hreplies =>
      have hrun : c.run (transmit message seq (busy.length + 0)) = _ :=
        run_transmit_of_busyRuns hready hstamp hbusy hreplies
      rw [Nat.add_zero, hfull] at hrun
      rw [hrun, run_transmit_zero, hsettings]
      exact ⟨_, rfl⟩
  | failed hbusy hroom hpending hreplies =>
      exact ⟨_, run_transmit_of_failure hready hstamp hbusy hroom hpending rfl hreplies⟩
  | overflowed hbusy hroom hpending hreplies =>
      exact ⟨_, run_transmit_of_failure hready hstamp hbusy hroom hpending rfl hreplies⟩
  | @silent busy window hbusy hroom hpending hreplies =>
      obtain ⟨more, hrun⟩ := run_transmit_of_room hready hstamp hbusy hroom hreplies
      have hgather : ((c.resending message busy.length).withReplies window).gathered seq message =
          (.silence, []) := by
        rw [gathered, hstamp]
        exact gather_of_pending hpending
      rw [hrun, run_transmit_of_silence (ready_resending hready _) hgather,
        sending_resending_withReplies, hsettings]
      exact ⟨_, rfl⟩

end

/-! ## Requests -/

theorem run_request_of_course {d : Draft} (hd : d.WellFormed)
    (hready : c.kernel.sendFailure = none)
    (h : Course c.settings c.nextSeq c.kernel.replies result attempts left) :
    ∃ clock, c.run (request d) =
      (result,
        { (c.numbering.resending (c.numbered d) attempts).withReplies left with clock }) := by
  rw [run_request]
  exact run_transmit_of_course (c := c.numbering) hready (stamp_numbered hd c) h

theorem run_request_of_refusal (d : Draft) {kind : IoKind}
    (h : c.kernel.sendFailure = some kind) :
    c.run (request d) = (.error (.transmitFailure kind), c.numbering) := by
  obtain ⟨more, hmore⟩ := Nat.exists_eq_add_of_le' c.settings.transmissions_pos
  rw [run_request, hmore]
  exact run_transmit_of_refusal (c := c.numbering) h

theorem course_iff {d : Draft} (hd : d.WellFormed) (hready : c.kernel.sendFailure = none) :
    Course c.settings c.nextSeq c.kernel.replies result attempts left ↔
      (c.run (request d)).1 = result ∧
      (c.run (request d)).2.kernel.sent =
        c.kernel.sent ++ List.replicate attempts (c.numbered d) ∧
      (c.run (request d)).2.kernel.replies = left := by
  constructor
  · intro h
    obtain ⟨clock, hrun⟩ := run_request_of_course hd hready h
    rw [hrun]
    exact ⟨rfl, resending_sent attempts c.numbering, rfl⟩
  · intro h
    obtain ⟨result', attempts', left', hcourse⟩ :=
      course_total c.settings c.nextSeq c.kernel.replies
    obtain ⟨clock, hrun⟩ := run_request_of_course hd hready hcourse
    rw [hrun] at h
    obtain ⟨rfl, hsent, rfl⟩ := h
    have hreplicate := (resending_sent attempts' c.numbering).symm.trans hsent
    have hlength := congrArg List.length (List.append_cancel_left hreplicate)
    rw [List.length_replicate, List.length_replicate] at hlength
    exact hlength ▸ hcourse

theorem Course.attempts_pos {s : Settings} (h : Course s seq replies result attempts left) :
    1 ≤ attempts := by
  cases h with
  | exhausted => exact s.transmissions_pos
  | _ => exact Nat.le_add_left ..

theorem Course.attempts_le {s : Settings} (h : Course s seq replies result attempts left) :
    attempts ≤ s.transmissions := by
  cases h with
  | exhausted => exact Nat.le_refl _
  | answered _ hroom | failed _ hroom | overflowed _ hroom | silent _ hroom => exact hroom

theorem exists_course {d : Draft} (hd : d.WellFormed) (hready : c.kernel.sendFailure = none) :
    ∃ attempts,
      Course c.settings c.nextSeq c.kernel.replies (c.run (request d)).1 attempts
        (c.run (request d)).2.kernel.replies ∧
      (c.run (request d)).2.kernel.sent =
        c.kernel.sent ++ List.replicate attempts (c.numbered d) := by
  obtain ⟨result, attempts, left, hcourse⟩ := course_total c.settings c.nextSeq c.kernel.replies
  obtain ⟨rfl, hsent, rfl⟩ := (course_iff hd hready).1 hcourse
  exact ⟨attempts, hcourse, hsent⟩

theorem exists_course_of_ok {d : Draft} (hd : d.WellFormed) {response : Response}
    (h : (c.run (request d)).1 = .ok response) :
    c.kernel.sendFailure = none ∧ ∃ attempts,
      Course c.settings c.nextSeq c.kernel.replies (.ok response) attempts
        (c.run (request d)).2.kernel.replies ∧
      (c.run (request d)).2.kernel.sent =
        c.kernel.sent ++ List.replicate attempts (c.numbered d) := by
  cases hfailure : c.kernel.sendFailure with
  | some kind =>
      rw [run_request_of_refusal d hfailure] at h
      cases h
  | none =>
      have hcourse := exists_course hd hfailure
      rw [h] at hcourse
      exact ⟨rfl, hcourse⟩

/-- A request sends one message, at least once if the kernel takes messages and at most as often as
the settings allow, and leaves the settings and the kernel's readiness as they were. -/
theorem exists_transmissions {d : Draft} (hd : d.WellFormed) (c : Connection) :
    ∃ attempts ≤ c.settings.transmissions,
      (c.run (request d)).2.kernel.sent =
        c.kernel.sent ++ List.replicate attempts (c.numbered d) ∧
      (c.kernel.sendFailure = none → 1 ≤ attempts) ∧
      (c.run (request d)).2.settings = c.settings ∧
      (c.run (request d)).2.kernel.sendFailure = c.kernel.sendFailure := by
  cases hfailure : c.kernel.sendFailure with
  | some kind =>
      rw [run_request_of_refusal d hfailure]
      exact ⟨0, Nat.zero_le _, (List.append_nil _).symm, nofun, rfl, hfailure⟩
  | none =>
      obtain ⟨result, attempts, left, hcourse⟩ :=
        course_total c.settings c.nextSeq c.kernel.replies
      obtain ⟨clock, hrun⟩ := run_request_of_course hd hfailure hcourse
      rw [hrun]
      exact ⟨attempts, hcourse.attempts_le, resending_sent attempts c.numbering,
        fun _ => hcourse.attempts_pos, resending_settings attempts c.numbering,
        ready_resending (c := c.numbering) hfailure attempts⟩

/-- A request that the kernel refuses is over at once.  Any other runs the one course that its
replies have: it is sent at least once and at most as often as the settings allow, and it is given
up as busy just when as many responses are led by the code of a busy kernel. -/
theorem request_runs_course (c : Connection) (d : Draft) (hd : d.WellFormed) :
    (∀ kind, c.kernel.sendFailure = some kind →
      c.run (request d) = (.error (.transmitFailure kind), c.numbering)) ∧
    (c.kernel.sendFailure = none →
      (∃ attempts, 1 ≤ attempts ∧ attempts ≤ c.settings.transmissions ∧
        Course c.settings c.nextSeq c.kernel.replies (c.run (request d)).1 attempts
          (c.run (request d)).2.kernel.replies ∧
        (c.run (request d)).2.kernel.sent =
          c.kernel.sent ++ List.replicate attempts (c.numbered d)) ∧
      (∀ result attempts left,
        Course c.settings c.nextSeq c.kernel.replies result attempts left ↔
          (c.run (request d)).1 = result ∧
          (c.run (request d)).2.kernel.sent =
            c.kernel.sent ++ List.replicate attempts (c.numbered d) ∧
          (c.run (request d)).2.kernel.replies = left) ∧
      (∀ attempts, (c.run (request d)).1 = .error (.retryExhausted attempts) ↔
        attempts = c.settings.transmissions ∧ ∃ busy left, BusyRuns c.nextSeq busy ∧
          busy.length = c.settings.transmissions ∧ c.kernel.replies = busy.flatten ++ left)) := by
  refine ⟨fun kind h => run_request_of_refusal d h, fun hready => ?_⟩
  obtain ⟨attempts, hcourse, hsent⟩ := exists_course hd hready
  refine ⟨⟨attempts, hcourse.attempts_pos, hcourse.attempts_le, hcourse, hsent⟩,
    fun _ _ _ => course_iff hd hready, fun budget => ?_⟩
  constructor
  · intro h
    rw [h] at hcourse
    cases hcourse with
    | exhausted hbusy hfull hreplies => exact ⟨rfl, _, _, hbusy, hfull, hreplies⟩
  · rintro ⟨rfl, busy, left, hbusy, hfull, hreplies⟩
    exact ((course_iff hd hready).1 (.exhausted hbusy hfull hreplies)).1

/-- A kernel that is busy once and then acknowledges. -/
def busyOnce : Connection :=
  { kernel := { replies := [.records 0 [.ack (-16)], .records 0 [.ack 0]] } }

theorem course_busyOnce : Course busyOnce.settings busyOnce.nextSeq busyOnce.kernel.replies
    (.ok (.ofMessages [(Script.Record.ack 0).message 1])) 2 [] := by
  have hbusy : Completes 1 [.records 0 [.ack (-16)]] [(Script.Record.ack (-16)).message 1] :=
    completes_record (by decide) rfl (by decide)
  have hack : Completes 1 [.records 0 [.ack 0]] [(Script.Record.ack 0).message 1] :=
    completes_record (by decide) rfl (by decide)
  have hruns : BusyRuns 1 [[.records 0 [.ack (-16)]]] :=
    List.forall_mem_singleton.2 ⟨_, hbusy, by decide⟩
  exact .answered hruns (by decide) hack (by decide) rfl

theorem request_busyOnce :
    (busyOnce.run (request (.new .newRule .request 1024))).1 =
        .ok (.ofMessages [(Script.Record.ack 0).message 1]) ∧
      (busyOnce.run (request (.new .newRule .request 1024))).2.kernel.sent =
        List.replicate 2 (busyOnce.numbered (.new .newRule .request 1024)) := by
  obtain ⟨-, hready⟩ := request_runs_course busyOnce (.new .newRule .request 1024)
    (Draft.wellFormed_new ..)
  obtain ⟨hresult, hsent, -⟩ := ((hready rfl).2.1 _ _ _).1 course_busyOnce
  exact ⟨hresult, hsent⟩

end RouteControl.Connection
