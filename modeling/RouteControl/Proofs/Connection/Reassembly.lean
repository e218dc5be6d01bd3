import Mathlib.Data.List.Basic
import RouteControl.Connection
import RouteControl.Proofs.Message.Framing

/-!
# Reassembly

What receiving comes to, said of the replies themselves.  The messages under a number that the
kernel's datagrams bring (`answers`) make up a response as soon as one of them is final.  Until
then the replies are `Pending`; the shortest run of replies with a final message `Completes` the
response.

The replies to come start with a run that completes a response, or with a pending run and a
failure, or they are pending to their end (`replies_cases`), and `gather` tells which
(`gather_of_completes`, `gather_of_failure`, `gather_of_pending`).
-/

namespace RouteControl

namespace Script.Reply

/-- The messages that a reply brings from the kernel when the last request had this number: those
of a datagram, up to the first fault in it. -/
def messages (seq : UInt32) (reply : Script.Reply) : List Message :=
  match reply.receive seq with
  | .ok datagram => if datagram.isFromKernel then (Message.read datagram.bytes).messages else []
  | .error _ => []

def isDatagram : Script.Reply → Bool
  | records .. | raw .. => true
  | failure _ | overflow .. => false

theorem isDatagram_of_receive {seq : UInt32} {reply : Script.Reply} {datagram : Datagram}
    (h : reply.receive seq = .ok datagram) : reply.isDatagram := by
  cases reply with
  | records | raw => rfl
  | failure | overflow => cases h

private theorem wellFormed_of_mem_messages {seq : UInt32} {reply : Script.Reply} {m : Message}
    (h : m ∈ reply.messages seq) : m.WellFormed := by
  unfold messages at h
  split at h
  · split at h
    · exact Message.wellFormed_of_mem_read h
    · cases h
  · cases h

end Script.Reply

/-- The last message is final, and no other is. -/
def Message.Terminated (messages : List Message) : Prop :=
  ∃ earlier last, messages = earlier ++ [last] ∧ (∀ m ∈ earlier, ¬m.header.isFinal) ∧
    last.header.isFinal

theorem Message.open_or_terminated (messages : List Message) :
    (∀ m ∈ messages, ¬m.header.isFinal) ∨ ∃ front, Terminated front ∧ front <+: messages := by
  induction messages with
  | nil => exact .inl (by simp)
  | cons m ms ih =>
      by_cases hm : m.header.isFinal
      · exact .inr ⟨[m], ⟨[], m, rfl, by simp, hm⟩, ⟨ms, rfl⟩⟩
      · rcases ih with hopen | ⟨front, ⟨earlier, last, rfl, hearlier, hlast⟩, hfront⟩
        · exact .inl (List.forall_mem_cons.2 ⟨hm, hopen⟩)
        · refine .inr ⟨m :: (earlier ++ [last]), ⟨m :: earlier, last, rfl, ?_, hlast⟩, ?_⟩
          · exact List.forall_mem_cons.2 ⟨hm, hearlier⟩
          · exact List.cons_prefix_cons.2 ⟨rfl, hfront⟩

namespace Connection

variable {seq : UInt32} {window left : List Script.Reply} {messages : List Message}

/-- The messages under a number that the kernel's datagrams bring, in order of arrival. -/
def answers (seq : UInt32) (replies : List Script.Reply) : List Message :=
  (replies.flatMap (·.messages seq)).filter (·.header.seq = seq)

/-- After these replies the response under a number is still to be waited for. -/
structure Pending (seq : UInt32) (window : List Script.Reply) : Prop where
  datagrams : ∀ reply ∈ window, reply.isDatagram
  unfinished : ∀ m ∈ answers seq window, ¬m.header.isFinal

/-- The last of these replies, and none before it, completes the response of these messages. -/
structure Completes (seq : UInt32) (window : List Script.Reply) (messages : List Message) :
    Prop where
  datagrams : ∀ reply ∈ window, reply.isDatagram
  arrived : messages <+: answers seq window
  terminated : Message.Terminated messages
  minimal : ∀ m ∈ answers seq window.dropLast, ¬m.header.isFinal

theorem answers_append (first second : List Script.Reply) :
    answers seq (first ++ second) = answers seq first ++ answers seq second := by
  simp [answers]

theorem answers_cons (reply : Script.Reply) (rest : List Script.Reply) :
    answers seq (reply :: rest) = answers seq [reply] ++ answers seq rest :=
  answers_append [reply] rest

theorem mem_answers {m : Message} :
    m ∈ answers seq window ↔ (∃ reply ∈ window, m ∈ reply.messages seq) ∧ m.header.seq = seq := by
  simp [answers]

private theorem wellFormed_of_mem_answers {m : Message} (h : m ∈ answers seq window) :
    m.WellFormed := by
  obtain ⟨⟨_, _, hm⟩, _⟩ := mem_answers.1 h
  exact Script.Reply.wellFormed_of_mem_messages hm

theorem pending_nil : Pending seq [] :=
  ⟨by simp, by simp [answers]⟩

theorem pending_cons {reply : Script.Reply} :
    Pending seq (reply :: window) ↔ Pending seq [reply] ∧ Pending seq window := by
  constructor
  · intro h
    have hopen := h.unfinished
    rw [answers_cons] at hopen
    obtain ⟨hhead, htail⟩ := List.forall_mem_append.1 hopen
    obtain ⟨hreply, hwindow⟩ := List.forall_mem_cons.1 h.datagrams
    exact ⟨⟨by simpa using hreply, hhead⟩, ⟨hwindow, htail⟩⟩
  · rintro ⟨hhead, htail⟩
    refine ⟨List.forall_mem_cons.2 ⟨hhead.datagrams _ (by simp), htail.datagrams⟩, ?_⟩
    rw [answers_cons]
    exact List.forall_mem_append.2 ⟨hhead.unfinished, htail.unfinished⟩

/-! ## Responses and the reply that completes them -/

theorem Completes.wellFormed (h : Completes seq window messages) :
    ∀ m ∈ messages, m.WellFormed :=
  fun _ hm => wellFormed_of_mem_answers (h.arrived.subset hm)

theorem completes_append {pending : List Script.Reply} {last : Script.Reply} {more : List Message}
    (hpending : Pending seq pending) (hlast : last.isDatagram)
    (hmore : more <+: answers seq [last]) (hterminated : Message.Terminated more) :
    Completes seq (pending ++ [last]) (answers seq pending ++ more) where
  datagrams := List.forall_mem_append.2 ⟨hpending.datagrams, by simpa using hlast⟩
  arrived := by
    rw [answers_append]
    exact (List.prefix_append_right_inj _).2 hmore
  terminated := by
    obtain ⟨earlier, final, rfl, hearlier, hfinal⟩ := hterminated
    exact ⟨answers seq pending ++ earlier, final, (List.append_assoc ..).symm,
      List.forall_mem_append.2 ⟨hpending.unfinished, hearlier⟩, hfinal⟩
  minimal := by
    rw [List.dropLast_concat]
    exact hpending.unfinished

theorem Completes.exists_last (h : Completes seq window messages) :
    ∃ pending last more, window = pending ++ [last] ∧ messages = answers seq pending ++ more ∧
      Pending seq pending ∧ last.isDatagram ∧ more <+: answers seq [last] ∧
      Message.Terminated more := by
  obtain ⟨earlier, final, hmessages, hearlier, hfinal⟩ := h.terminated
  have hwindow : window ≠ [] := by
    rintro rfl
    have hnil : messages = [] := List.prefix_nil.1 h.arrived
    simp [hmessages] at hnil
  obtain ⟨pending, last, rfl⟩ := (List.eq_nil_or_concat' window).resolve_left hwindow
  have hdatagrams := List.forall_mem_append.1 h.datagrams
  have hopen : ∀ m ∈ answers seq pending, ¬m.header.isFinal := by
    simpa using h.minimal
  have harrived := h.arrived
  rw [answers_append] at harrived
  have hfront : answers seq pending <+: messages := by
    rcases List.prefix_or_prefix_of_prefix harrived (List.prefix_append _ _) with hle | hle
    · have hmem : final ∈ messages := by simp [hmessages]
      exact absurd hfinal (hopen final (hle.subset hmem))
    · exact hle
  obtain ⟨more, rfl⟩ := hfront
  have hmore : more ≠ [] := by
    rintro rfl
    rw [List.append_nil] at hmessages
    exact absurd hfinal (hopen final (by simp [hmessages]))
  obtain ⟨front, final', rfl⟩ := (List.eq_nil_or_concat' more).resolve_left hmore
  rw [← List.append_assoc] at hmessages
  obtain ⟨hfront, hlast⟩ := List.append_inj' hmessages rfl
  obtain rfl : final' = final := by simpa using hlast
  refine ⟨pending, last, front ++ [final'], rfl, rfl, ⟨hdatagrams.1, hopen⟩,
    hdatagrams.2 last (by simp), (List.prefix_append_right_inj _).1 harrived, ?_⟩
  exact ⟨front, final', rfl, fun m hm => hearlier m (hfront ▸ List.mem_append_right _ hm), hfinal⟩

theorem Completes.cons {reply : Script.Reply} (hreply : Pending seq [reply])
    (h : Completes seq window messages) :
    Completes seq (reply :: window) (answers seq [reply] ++ messages) := by
  obtain ⟨pending, last, more, rfl, rfl, hpending, hlast, hmore, hterminated⟩ := h.exists_last
  have hlonger := completes_append (pending_cons.2 ⟨hreply, hpending⟩) hlast hmore hterminated
  rw [answers_cons, List.append_assoc] at hlonger
  exact hlonger

theorem replies_cases (seq : UInt32) (replies : List Script.Reply) :
    (∃ window left messages, replies = window ++ left ∧ Completes seq window messages) ∨
      (∃ window reply left, replies = window ++ reply :: left ∧ Pending seq window ∧
        ¬reply.isDatagram) ∨
      Pending seq replies := by
  induction replies with
  | nil => exact .inr (.inr pending_nil)
  | cons reply rest ih =>
      by_cases hreply : reply.isDatagram
      · rcases Message.open_or_terminated (answers seq [reply]) with hopen | ⟨front, hfront, hle⟩
        · have hpending : Pending seq [reply] := ⟨by simpa using hreply, hopen⟩
          rcases ih with ⟨window, left, messages, rfl, h⟩ | ⟨window, bad, left, rfl, h, hbad⟩ | h
          · exact .inl ⟨reply :: window, left, _, rfl, h.cons hpending⟩
          · exact .inr (.inl ⟨reply :: window, bad, left, rfl, pending_cons.2 ⟨hpending, h⟩, hbad⟩)
          · exact .inr (.inr (pending_cons.2 ⟨hpending, h⟩))
        · exact .inl ⟨[reply], rest, _, rfl, completes_append pending_nil hreply hle hfront⟩
      · exact .inr (.inl ⟨[], reply, rest, rfl, pending_nil, hreply⟩)

/-! ## The messages of one datagram -/

private theorem answering_of_unfinished {arrived : List Message}
    (h : ∀ m ∈ arrived.filter (·.header.seq = seq), ¬m.header.isFinal) :
    answering seq arrived = (arrived.filter (·.header.seq = seq), false) := by
  induction arrived with
  | nil => rfl
  | cons m ms ih =>
      by_cases hseq : m.header.seq = seq
      · rw [List.filter_cons_of_pos (by simpa using hseq)] at h ⊢
        obtain ⟨hm, hms⟩ := List.forall_mem_cons.1 h
        rw [answering, if_neg (not_not_intro hseq), if_neg hm, ih hms]
      · rw [List.filter_cons_of_neg (by simpa using hseq)] at h ⊢
        rw [answering, if_pos hseq, ih h]

theorem answering_of_terminated {arrived : List Message}
    (hterminated : Message.Terminated messages)
    (h : messages <+: arrived.filter (·.header.seq = seq)) :
    answering seq arrived = (messages, true) := by
  induction arrived generalizing messages with
  | nil =>
      obtain ⟨earlier, last, rfl, -, -⟩ := hterminated
      simp at h
  | cons m ms ih =>
      by_cases hseq : m.header.seq = seq
      · rw [List.filter_cons_of_pos (by simpa using hseq)] at h
        rw [answering, if_neg (not_not_intro hseq)]
        obtain ⟨earlier, last, rfl, hearlier, hlast⟩ := hterminated
        cases earlier with
        | nil =>
            obtain ⟨rfl, -⟩ := List.cons_prefix_cons.1 h
            rw [if_pos hlast]
            rfl
        | cons first more =>
            obtain ⟨rfl, hle⟩ := List.cons_prefix_cons.1 h
            obtain ⟨hfirst, hmore⟩ := List.forall_mem_cons.1 hearlier
            rw [if_neg hfirst, ih ⟨more, last, rfl, hmore, hlast⟩ hle]
            rfl
      · rw [List.filter_cons_of_neg (by simpa using hseq)] at h
        rw [answering, if_pos hseq]
        exact ih hterminated h

/-! ## Receiving -/

theorem Gathered.behind_behind (first second : List Message) (g : Gathered) :
    (g.behind second).behind first = g.behind (first ++ second) := by
  cases g <;> simp [Gathered.behind]

@[simp] theorem Gathered.behind_nil (g : Gathered) : g.behind [] = g := by
  cases g <;> rfl

theorem gather_cons {stamp : UInt32} {reply : Script.Reply} (h : reply.isDatagram)
    (rest : List Script.Reply) :
    gather seq stamp (reply :: rest) =
      if (answering seq (reply.messages stamp)).2 then
        (.complete (answering seq (reply.messages stamp)).1, rest)
      else
        ((gather seq stamp rest).1.behind (answering seq (reply.messages stamp)).1,
          (gather seq stamp rest).2) := by
  cases reply with
  | records sender rs =>
      simp only [gather, Script.Reply.receive, Script.Reply.messages]
      split <;> rfl
  | raw sender bytes =>
      simp only [gather, Script.Reply.receive, Script.Reply.messages]
      split <;> rfl
  | failure kind => simp [Script.Reply.isDatagram] at h
  | overflow received capacity => simp [Script.Reply.isDatagram] at h

theorem gather_of_failure {stamp : UInt32} {reply : Script.Reply} {e : Error}
    (h : reply.receive stamp = .error e) (rest : List Script.Reply) :
    gather seq stamp (reply :: rest) = (.failed e, rest) := by
  rw [gather, h]

theorem gather_silence {stamp : UInt32} {replies : List Script.Reply}
    (h : gather seq stamp replies = (.silence, left)) : left = [] := by
  induction replies generalizing left with
  | nil => exact (Prod.ext_iff.1 h).2.symm
  | cons reply rest ih =>
      by_cases hreply : reply.isDatagram
      · rw [gather_cons hreply] at h
        split at h
        · cases h
        · obtain ⟨hbehind, rfl⟩ := Prod.ext_iff.1 h
          rcases hrest : gather seq stamp rest with ⟨g, left⟩
          rw [hrest] at hbehind
          cases g with
          | silence => exact ih hrest
          | complete | failed => cases hbehind
      · cases reply with
        | records | raw => exact absurd rfl hreply
        | failure | overflow => cases h

theorem answers_singleton (reply : Script.Reply) :
    answers seq [reply] = (reply.messages seq).filter (·.header.seq = seq) := by
  simp [answers]

theorem gather_append_of_pending (h : Pending seq window) (rest : List Script.Reply) :
    gather seq seq (window ++ rest) =
      ((gather seq seq rest).1.behind (answers seq window), (gather seq seq rest).2) := by
  induction window with
  | nil => simp [answers]
  | cons reply window ih =>
      obtain ⟨hreply, hwindow⟩ := pending_cons.1 h
      have hopen := hreply.unfinished
      rw [answers_singleton] at hopen
      rw [List.cons_append, gather_cons (hreply.datagrams reply (by simp)),
        answering_of_unfinished hopen, ih hwindow, answers_cons, answers_singleton]
      simp [Gathered.behind_behind]

theorem gather_of_completes (h : Completes seq window messages) (left : List Script.Reply) :
    gather seq seq (window ++ left) = (.complete messages, left) := by
  obtain ⟨pending, last, more, rfl, rfl, hpending, hlast, hmore, hterminated⟩ := h.exists_last
  rw [answers_singleton] at hmore
  rw [List.append_assoc, gather_append_of_pending hpending, List.singleton_append,
    gather_cons hlast, answering_of_terminated hterminated hmore]
  rfl

theorem gather_of_pending (h : Pending seq window) :
    gather seq seq window = (.silence, []) := by
  have hgather := gather_append_of_pending h []
  rwa [List.append_nil] at hgather

theorem gather_of_pending_failure (h : Pending seq window) {reply : Script.Reply} {e : Error}
    (hreply : reply.receive seq = .error e) :
    gather seq seq (window ++ reply :: left) = (.failed e, left) := by
  rw [gather_append_of_pending h, gather_of_failure hreply]
  rfl

end Connection

end RouteControl
