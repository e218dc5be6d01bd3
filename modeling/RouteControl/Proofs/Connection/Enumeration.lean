import RouteControl.Connection.Enumeration
import RouteControl.Proofs.Connection.Completeness
import RouteControl.Proofs.Connection.Preparation
import RouteControl.Proofs.Response.Listing

/-!
# Enumeration

Handing entries to a callback is all or nothing.  The whole response is checked before the first
entry is handed on, and handing on cannot fail (`run_handEach`), so that there are four ways for an
enumeration to end, and only the last of them touches the state of the caller
(`run_dumpEach_of_answered`).
-/

namespace RouteControl

theorem Message.Terminated.doneLast {messages : List Message} (h : Message.Terminated messages) :
    Message.DoneLast messages := by
  obtain ⟨earlier, last, rfl, hearlier, -⟩ := h
  have hopen : ∀ m ∈ earlier, m.kind ≠ .done := fun m hm hdone =>
    hearlier m hm (Message.isFinal_of_kind_eq_done hdone)
  refine List.pairwise_append.2 ⟨?_, List.pairwise_singleton _ _, fun m hm _ _ => hopen m hm⟩
  exact List.Pairwise.imp_of_mem (fun hm _ _ => hopen _ hm)
    (List.pairwise_of_forall fun _ _ => trivial)

namespace Connection

open Response

namespace Visit

variable {α β σ : Type}

theorem run_bind (visit : Visit σ α) (next : α → Visit σ β) (c : Connection) (state : σ) :
    (visit >>= next).run c state =
      match visit.run c state with
      | (.ok a, c, state) => (next a).run c state
      | (.error e, c, state) => (.error e, c, state) := by
  simp only [run, bind, EStateM.bind, EStateM.run]
  cases visit (c, state) <;> rfl

theorem run_ofCall (call : Call α) (c : Connection) (state : σ) :
    (ofCall call).run c state = ((c.run call).1, (c.run call).2, state) := by
  simp only [run, ofCall, Connection.run, EStateM.run]
  cases call c <;> rfl

theorem run_hand (callback : σ → α → σ) (entry : α) (c : Connection) (state : σ) :
    (hand callback entry).run c state = (.ok (), c, callback state entry) := rfl

end Visit

variable {α σ : Type} {kind : RecordKind α} {type : MessageType} {expected : MessageKind}
  {callback : σ → α → σ} {c : Connection} {d : Draft} {state : σ}

theorem run_handEach (decode? : Bytes → Option α) (callback : σ → α → σ) (payloads : List Bytes)
    (c : Connection) (state : σ) :
    (handEach decode? callback payloads).run c state =
      (.ok (), c, (payloads.filterMap decode?).foldl callback state) := by
  induction payloads generalizing state with
  | nil => rfl
  | cons payload rest ih =>
      cases hdecode : decode? payload with
      | none =>
          rw [List.filterMap_cons_none hdecode, ← ih state]
          simp only [handEach, hdecode]
      | some entry =>
          rw [List.filterMap_cons_some hdecode, List.foldl_cons, ← ih (callback state entry)]
          simp only [handEach, hdecode]
          rw [Visit.run_bind, Visit.run_hand]

def dumpRequest (kind : RecordKind α) (type : MessageType) (c : Connection) : Except Error Draft :=
  (Draft.new type (.request ||| .dump) c.settings.requestCapacity).edited
    (Draft.append kind.dumpHeader)

theorem run_compose_dump (kind : RecordKind α) (type : MessageType) (c : Connection) :
    c.run (compose (dumpDraft type) (Draft.append kind.dumpHeader)) =
      (c.dumpRequest kind type, c) := by
  rw [dumpDraft, run_compose_draft, dumpRequest]

theorem wellFormed_of_dumpRequest (h : c.dumpRequest kind type = .ok d) : d.WellFormed :=
  Draft.wellFormed_of_edited (Draft.writes_append kind.dumpHeader) h

/-! ## The ends of an enumeration -/

theorem run_dumpEach_of_unwritten {e : Error} (h : c.dumpRequest kind type = .error e) :
    (dumpEach kind type expected callback).run c state = (.error e, c, state) := by
  rw [dumpEach, Visit.run_bind, Visit.run_ofCall, run_compose_dump, h]

theorem run_dumpEach_of_written (h : c.dumpRequest kind type = .ok d) :
    (dumpEach kind type expected callback).run c state =
      Visit.run (do
        let response ← Visit.ofCall (request d)
        let payloads ← Visit.ofCall (ofExcept (response.dumpPayloads expected))
        handEach kind.decode? callback payloads) c state := by
  rw [dumpEach, Visit.run_bind, Visit.run_ofCall, run_compose_dump, h]

theorem run_dumpEach_of_unanswered (hwritten : c.dumpRequest kind type = .ok d) {e : Error}
    (h : (c.run (request d)).1 = .error e) :
    (dumpEach kind type expected callback).run c state =
      (.error e, (c.run (request d)).2, state) := by
  rw [run_dumpEach_of_written hwritten, Visit.run_bind, Visit.run_ofCall, h]

theorem run_dumpEach_of_answered (hwritten : c.dumpRequest kind type = .ok d) {response : Response}
    (h : (c.run (request d)).1 = .ok response) :
    (dumpEach kind type expected callback).run c state =
      match response.dumpPayloads expected with
      | .ok payloads =>
        (.ok (), (c.run (request d)).2, (payloads.filterMap kind.decode?).foldl callback state)
      | .error e => (.error e, (c.run (request d)).2, state) := by
  rw [run_dumpEach_of_written hwritten, Visit.run_bind, Visit.run_ofCall, h]
  simp only [Visit.run_bind, Visit.run_ofCall, run_ofExcept]
  cases response.dumpPayloads expected with
  | error e => rfl
  | ok payloads => exact run_handEach kind.decode? callback payloads _ state

/-- The messages that are decoded are those with a whole header of the family. -/
theorem forall₂_decode (kind : RecordKind α) (messages : List Message) :
    List.Forall₂ (fun m entry => kind.decode? m.payload = some entry)
      (messages.filter fun m => kind.headerSize ≤ m.payload.length)
      ((messages.map Message.payload).filterMap kind.decode?) := by
  induction messages with
  | nil => exact .nil
  | cons m ms ih =>
      have hwhole := kind.isSome_decode? m.payload
      cases hdecode : kind.decode? m.payload with
      | none =>
          rw [hdecode, Option.isSome_none, Bool.false_eq_true, false_iff] at hwhole
          rw [List.filter_cons_of_neg (by simpa using hwhole), List.map_cons,
            List.filterMap_cons_none hdecode]
          exact ih
      | some entry =>
          rw [hdecode, Option.isSome_some, eq_self, true_iff] at hwhole
          rw [List.filter_cons_of_pos (by simpa using hwhole), List.map_cons,
            List.filterMap_cons_some hdecode]
          exact .cons hdecode ih

/-- The payloads of a response are refused, or there is a list of entries: the kernel's answer is
told from its messages alone. -/
theorem dumpPayloads_of_answered (hwritten : c.dumpRequest kind type = .ok d)
    {response : Response} (h : (c.run (request d)).1 = .ok response) (expected : MessageKind) :
    (Lists expected response.read.messages →
      response.dumpPayloads expected =
        .ok ((entriesOf expected response.read.messages).map Message.payload)) ∧
    (¬Lists expected response.read.messages →
      ∃ e, response.dumpPayloads expected = .error e) := by
  obtain ⟨_, _, messages, -, -, -, hcompletes, rfl⟩ :=
    exists_completes_of_ok (wellFormed_of_dumpRequest hwritten) h
  have hlast := hcompletes.terminated.doneLast
  rw [read_ofMessages hcompletes.wellFormed]
  exact ⟨dumpPayloads_of_lists hcompletes.wellFormed hlast,
    dumpPayloads_of_not_lists hcompletes.wellFormed hlast⟩

/-- An enumeration that fails has handed nothing on.  It succeeds just when its request can be
written, the exchange returns a response, and the response lists entries of the kind expected.  Then
it has handed on, one after the other and each once, what is read from the messages of this kind
with a whole header of the family, and nothing else.  An error message and the end of several
messages are never handed on, even if they are what is expected. -/
theorem dumpEach_allOrNothing (kind : RecordKind α) (type : MessageType) (expected : MessageKind)
    (callback : σ → α → σ) (c : Connection) (state : σ) :
    let visit := (dumpEach kind type expected callback).run c state
    (∀ e, visit.1 = .error e → visit.2.2 = state) ∧
    (visit.1 = .ok () ↔ ∃ d response, c.dumpRequest kind type = .ok d ∧
      (c.run (request d)).1 = .ok response ∧ Lists expected response.read.messages) ∧
    (∀ d response, c.dumpRequest kind type = .ok d → (c.run (request d)).1 = .ok response →
      visit.1 = .ok () →
        (expected ≠ .error → expected ≠ .done → ∃ entries,
          List.Forall₂ (fun m entry => kind.decode? m.payload = some entry)
            (response.read.messages.filter fun m =>
              m.kind = expected ∧ kind.headerSize ≤ m.payload.length) entries ∧
          visit.2.2 = entries.foldl callback state) ∧
        (expected = .error ∨ expected = .done → visit.2.2 = state)) := by
  intro visit
  cases hwritten : c.dumpRequest kind type with
  | error e =>
      have hrun : visit = (.error e, c, state) := run_dumpEach_of_unwritten hwritten
      rw [hrun]
      exact ⟨fun _ _ => rfl, ⟨nofun, nofun⟩, nofun⟩
  | ok d =>
    cases hanswer : (c.run (request d)).1 with
    | error e =>
        have hrun : visit = _ := run_dumpEach_of_unanswered hwritten hanswer
        rw [hrun]
        refine ⟨fun _ _ => rfl, ⟨nofun, ?_⟩, ?_⟩
        · rintro ⟨_, _, h, hok, -⟩
          cases h
          rw [hanswer] at hok
          cases hok
        · intro _ _ _ _ hok
          cases hok
    | ok response =>
        have hrun : visit = _ := run_dumpEach_of_answered hwritten hanswer
        obtain ⟨hlisted, hrefused⟩ := dumpPayloads_of_answered hwritten hanswer expected
        by_cases hlists : Lists expected response.read.messages
        · rw [hlisted hlists] at hrun
          rw [hrun]
          refine ⟨nofun, ⟨fun _ => ⟨d, response, rfl, hanswer, hlists⟩, fun _ => rfl⟩, ?_⟩
          intro _ _ hd hok _
          cases hd
          rw [hanswer] at hok
          cases hok
          constructor
          · intro herror hdone
            have hdecode := forall₂_decode kind (entriesOf expected response.read.messages)
            rw [filter_entriesOf herror hdone] at hdecode
            exact ⟨_, hdecode, rfl⟩
          · intro hmark
            rw [entriesOf_eq_nil hmark]
            rfl
        · obtain ⟨e, he⟩ := hrefused hlists
          rw [he] at hrun
          rw [hrun]
          refine ⟨fun _ _ => rfl, ⟨nofun, ?_⟩, nofun⟩
          rintro ⟨_, _, hd, hok, hlists'⟩
          cases hd
          rw [hanswer] at hok
          cases hok
          exact absurd hlists' hlists

end Connection

end RouteControl
