import RouteControl.Proofs.Connection.Acknowledgement
import RouteControl.Proofs.Connection.Enumeration
import RouteControl.Proofs.Connection.Lookup

/-!
# Refusals

Some errors say that a request was refused before it was sent (`Error.isRefusal`).  Whatever goes
wrong before the exchange is told by such an error, and nothing that goes wrong in the exchange is,
so that a call that is refused leaves the connection as it was (`run_prepared`).  A source route
that is at fault is refused, and what is sent about any other is in order.
-/

namespace RouteControl

/-- Whether an error says that a request was refused before it was sent. -/
def Error.isRefusal : Error → Bool
  | .bufferTooSmall .. | .invalidMessage _ | .notSupported _ | .interfaceNotFound _ => true
  | _ => false

theorem Error.isRefusal_ofErrno (code : Int32) : (Error.ofErrno code).isRefusal = false := by
  simp only [ofErrno]
  split
  · rfl
  · split <;> rfl

/-! ## What the kernel says is no refusal -/

namespace Response

variable {expected : MessageKind} {messages : List Message} {e : Error}

private theorem isRefusal_of_checkReport {m : Message} (h : checkReport m = .error e) :
    e.isRefusal = false := by
  by_cases hwhole : ErrorReport.size ≤ m.payload.length
  · rw [checkReport_of_whole hwhole] at h
    split at h
    · cases h
    · cases h
      exact Error.isRefusal_ofErrno _
  · rw [checkReport_of_short (Nat.lt_of_not_le hwhole)] at h
    cases h
    rfl

private theorem isRefusal_of_ackIn (h : ackIn none messages = .error e) : e.isRefusal = false := by
  cases ackIn_eq_iff.1 h <;> rfl

private theorem isRefusal_of_payloadsIn (h : payloadsIn expected none messages = .error e) :
    e.isRefusal = false := by
  induction messages with
  | nil => cases h
  | cons m ms ih =>
      by_cases herror : m.kind = .error
      · rw [payloadsIn_cons_of_report herror] at h
        cases hreport : checkReport m with
        | error _ =>
            rw [hreport] at h
            cases h
            exact isRefusal_of_checkReport hreport
        | ok _ =>
            rw [hreport] at h
            exact ih h
      by_cases hdone : m.kind = .done
      · rw [payloadsIn, hdone] at h
        cases h
      rw [payloadsIn_cons_of_entry herror hdone] at h
      cases hrest : payloadsIn expected none ms with
      | error _ =>
          rw [hrest] at h
          cases h
          exact ih hrest
      | ok _ =>
          rw [hrest] at h
          cases h

private theorem isRefusal_of_dumpPayloads (hwell : ∀ m ∈ messages, m.WellFormed)
    (h : (ofMessages messages).dumpPayloads expected = .error e) : e.isRefusal = false := by
  rw [dumpPayloads, read_ofMessages hwell] at h
  split at h
  · exact isRefusal_of_payloadsIn h
  · cases h
    rfl

end Response

/-! ## What keeps a request from being written is a refusal -/

theorem InterfaceRef.isRefusal_of_resolve {device : InterfaceRef} {host : Interface.Table}
    {e : Error} (h : device.resolve host = .error e) : e.isRefusal := by
  cases device with
  | index => cases h
  | name =>
      simp only [resolve] at h
      split at h
      · cases h
      · split at h <;> cases h <;> rfl

theorem SourceRoute.isRefusal_of_validate {r : SourceRoute} {e : Error}
    (h : r.validate = .error e) : e.isRefusal := by
  simp only [validate] at h
  split at h
  · cases h
    rfl
  split at h
  · cases h
    rfl
  split at h
  · cases h
    rfl
  · cases h

theorem SourceRoute.isRefusal_of_resolveDevice {r : SourceRoute} {host : Interface.Table}
    {e : Error} (h : r.resolveDevice host = .error e) : e.isRefusal := by
  simp only [resolveDevice] at h
  split at h
  · cases h
  · rename_i device _
    cases hdevice : device.resolve host with
    | ok index =>
        rw [hdevice] at h
        cases h
    | error _ =>
        rw [hdevice] at h
        cases h
        exact InterfaceRef.isRefusal_of_resolve hdevice

namespace Connection

open Draft

variable {α β : Type} {sort : Error → Prop}

def FailsWith (sort : Error → Prop) (call : Call α) : Prop :=
  ∀ (c : Connection) (e : Error), (c.run call).1 = .error e → sort e

private theorem failsWith_pure (a : α) : FailsWith sort (pure a) :=
  fun _ _ h => nomatch h

private theorem failsWith_ofExcept {result : Except Error α} (h : ∀ e, result = .error e → sort e) :
    FailsWith sort (ofExcept result) := by
  intro c e he
  rw [run_ofExcept] at he
  exact h e he

theorem FailsWith.bind {first : Call α} {next : α → Call β} (h : FailsWith sort first)
    (hnext : ∀ (c : Connection) (a : α), (c.run first).1 = .ok a → FailsWith sort (next a)) :
    FailsWith sort (first >>= next) := by
  intro c e he
  rw [run_bind] at he
  rcases hfirst : c.run first with ⟨e' | a, middle⟩ <;> rw [hfirst] at he
  · cases he
    exact h c e (congrArg Prod.fst hfirst)
  · exact hnext c a (congrArg Prod.fst hfirst) middle e he

private theorem failsWith_compose {edit : Edit Unit} {blocks : List Bytes} (h : Writes edit blocks)
    (type : MessageType) (flags : MessageFlags) :
    FailsWith (·.isRefusal) (compose (draft type flags) edit) := by
  intro c e he
  rw [run_compose_draft] at he
  rcases edited_cases type flags c.settings.requestCapacity h with hok | ⟨_, _, herror⟩
  · rw [hok] at he
    cases he
  · rw [herror] at he
    cases he
    rfl

theorem failsWith_resolve (device : InterfaceRef) : FailsWith (·.isRefusal) (resolve device) := by
  intro c e he
  rw [run_resolve] at he
  exact InterfaceRef.isRefusal_of_resolve he

theorem failsWith_validate (r : SourceRoute) : FailsWith (·.isRefusal) (ofExcept r.validate) :=
  failsWith_ofExcept fun _ => SourceRoute.isRefusal_of_validate

theorem failsWith_validatedDevice (r : SourceRoute) :
    FailsWith (·.isRefusal) (validatedDevice r) := by
  refine (failsWith_validate r).bind fun _ _ _ => ?_
  intro c e he
  have hrun := run_ofExcept (r.resolveDevice c.kernel.interfaces) c
  exact SourceRoute.isRefusal_of_resolveDevice ((congrArg Prod.fst hrun).symm.trans he)

theorem Operation.failsWith_prepare (op : Operation) : FailsWith (·.isRefusal) op.prepare := by
  cases op with
  | addAddress device address =>
      exact (failsWith_resolve device).bind fun _ index _ =>
        failsWith_compose (HostAddress.writes ⟨index, address⟩) _ _
  | deleteAddress device address =>
      exact (failsWith_resolve device).bind fun _ index _ =>
        failsWith_compose (HostAddress.writes ⟨index, address⟩) _ _
  | addRule rule => exact failsWith_compose rule.writes _ _
  | deleteRule rule => exact failsWith_compose rule.writes _ _
  | addSourceRoute route =>
      exact (failsWith_validatedDevice route).bind fun _ _ _ =>
        (failsWith_validate route).bind fun _ _ _ => failsWith_compose (route.writes _ _) _ _
  | deleteSourceRoute route =>
      exact (failsWith_validatedDevice route).bind fun _ _ _ =>
        (failsWith_validate route).bind fun _ _ _ => failsWith_compose (route.writes _ _) _ _

/-! ## Exchanges -/

theorem Course.isRefusal {s : Settings} {seq : UInt32} {replies left : List Script.Reply}
    {attempts : Nat} {e : Error} (h : Course s seq replies (.error e) attempts left) :
    e.isRefusal = false := by
  cases h <;> rfl

section

variable {d : Draft}

theorem failsWith_request (hd : d.WellFormed) :
    FailsWith (·.isRefusal = false) (request d) := by
  intro c e he
  cases hfailure : c.kernel.sendFailure with
  | some kind =>
      rw [run_request_of_refusal d hfailure] at he
      cases he
      rfl
  | none =>
      obtain ⟨attempts, hcourse, -⟩ := exists_course hd hfailure
      rw [he] at hcourse
      exact hcourse.isRefusal

theorem failsWith_requestAck (hd : d.WellFormed) :
    FailsWith (·.isRefusal = false) (requestAck d) := by
  refine (failsWith_request hd).bind fun c response hok => failsWith_ofExcept fun e he => ?_
  obtain ⟨messages, hfinal, rfl⟩ := exists_finalResponse hd hok
  rw [Response.ack, Response.read_ofMessages hfinal.wellFormed] at he
  exact Response.isRefusal_of_ackIn he

private theorem isRefusal_of_dumpPayloads_of_run (hd : d.WellFormed) {c : Connection}
    {response : Response}
    (hok : (c.run (request d)).1 = .ok response) {expected : MessageKind} {e : Error}
    (he : response.dumpPayloads expected = .error e) : e.isRefusal = false := by
  obtain ⟨messages, hfinal, rfl⟩ := exists_finalResponse hd hok
  exact Response.isRefusal_of_dumpPayloads hfinal.wellFormed he

theorem failsWith_entries (hd : d.WellFormed) (expected : MessageKind)
    (decode? : Bytes → Option α) :
    FailsWith (·.isRefusal = false) (entries d expected decode?) :=
  (failsWith_request hd).bind fun _ _ hok =>
    (failsWith_ofExcept fun _ he => isRefusal_of_dumpPayloads_of_run hd hok he).bind
      fun _ _ _ => failsWith_pure _

end

/-- A call that prepares a request and exchanges it fails with a refusal just when the preparation
fails, and then it leaves the connection as it was. -/
theorem run_prepared {prepare : Call Draft} {exchange : Draft → Call α} (hdrafts : Drafts prepare)
    (hprepare : FailsWith (·.isRefusal) prepare)
    (hexchange : ∀ d, d.WellFormed → FailsWith (·.isRefusal = false) (exchange d))
    (c : Connection) (e : Error) :
    ((c.run prepare).1 = .error e →
      e.isRefusal ∧ c.run (prepare >>= exchange) = (.error e, c)) ∧
    (e.isRefusal → (c.run (prepare >>= exchange)).1 = .error e →
      (c.run (prepare >>= exchange)).2 = c) := by
  obtain ⟨hc, hdraft⟩ := hdrafts c
  rw [run_bind]
  rcases hrun : c.run prepare with ⟨refusal | d, middle⟩ <;> rw [hrun] at hc hdraft <;>
    obtain rfl : middle = c := hc
  · refine ⟨fun he => ?_, fun _ _ => rfl⟩
    cases he
    exact ⟨hprepare middle e (congrArg Prod.fst hrun), rfl⟩
  · refine ⟨nofun, fun hrefusal he => ?_⟩
    have hanswer := hexchange d (hdraft d rfl) middle e he
    exact absurd hrefusal (by simpa using hanswer)

/-- An enumeration fails with a refusal just when its request is not written. -/
theorem run_dumpEach_of_refusal {σ : Type} (kind : RecordKind α) (type : MessageType)
    (expected : MessageKind) (callback : σ → α → σ) (state : σ) (c : Connection) (e : Error) :
    (c.dumpRequest kind type = .error e → e.isRefusal ∧
      (dumpEach kind type expected callback).run c state = (.error e, c, state)) ∧
    (e.isRefusal → ((dumpEach kind type expected callback).run c state).1 = .error e →
      ((dumpEach kind type expected callback).run c state).2 = (c, state)) := by
  have hrun := run_compose_dump kind type c
  cases hwritten : c.dumpRequest kind type with
  | error refusal =>
      have hrefusal : refusal.isRefusal :=
        failsWith_compose (writes_append kind.dumpHeader) type _ c refusal
          (congrArg Prod.fst (hrun.trans (congrArg (·, c) hwritten)))
      rw [run_dumpEach_of_unwritten hwritten]
      refine ⟨fun he => ?_, fun _ _ => rfl⟩
      cases he
      exact ⟨hrefusal, rfl⟩
  | ok d =>
      have hd := wellFormed_of_dumpRequest hwritten
      refine ⟨nofun, fun hrefusal he => absurd hrefusal ?_⟩
      rw [Bool.not_eq_true]
      cases hanswer : (c.run (request d)).1 with
      | error _ =>
          rw [run_dumpEach_of_unanswered hwritten hanswer] at he
          cases he
          exact failsWith_request hd c e hanswer
      | ok response =>
          rw [run_dumpEach_of_answered hwritten hanswer] at he
          cases hpayloads : response.dumpPayloads expected with
          | ok _ =>
              rw [hpayloads] at he
              cases he
          | error _ =>
              rw [hpayloads] at he
              cases he
              exact isRefusal_of_dumpPayloads_of_run hd hanswer hpayloads

/-! ## Source routes -/

section

variable {r : SourceRoute}

private theorem run_of_unfit {e : Error} (h : r.validate = .error e) (c : Connection) :
    c.run (addSourceRoute r) = (.error e, c) ∧ c.run (deleteSourceRoute r) = (.error e, c) := by
  have hdevice : c.run (validatedDevice r) = (.error e, c) := by
    rw [validatedDevice, run_bind, run_ofExcept, h]
  constructor
  · rw [addSourceRoute, run_bind, hdevice]
  · rw [deleteSourceRoute, run_bind, hdevice]

/-- The request for a change of this type to a source route. -/
def sourceRouteRequest (type : MessageType) (flags : MessageFlags) (withMetrics : Bool)
    (r : SourceRoute) (outputInterface : Option UInt32) : Call Draft := do
  ofExcept r.validate
  compose (draft type flags) (r.write outputInterface withMetrics)

def changeSourceRoute (type : MessageType) (flags : MessageFlags) (withMetrics : Bool)
    (r : SourceRoute) : Call Unit := do
  let outputInterface ← validatedDevice r
  requestAck (← sourceRouteRequest type flags withMetrics r outputInterface)

theorem addSourceRoute_eq (r : SourceRoute) :
    addSourceRoute r = changeSourceRoute .newRoute (.request ||| .ack ||| r.addFlags) true r := rfl

theorem deleteSourceRoute_eq (r : SourceRoute) :
    deleteSourceRoute r = changeSourceRoute .deleteRoute (.request ||| .ack ||| 0) false r := rfl

private theorem run_sourceRouteRequest_cases (type : MessageType) (flags : MessageFlags)
    (withMetrics : Bool) (r : SourceRoute) (outputInterface : Option UInt32) (c : Connection) :
    (∃ e, c.run (sourceRouteRequest type flags withMetrics r outputInterface) = (.error e, c)) ∨
    r.validate = .ok () ∧ ∃ d : Draft,
      c.run (sourceRouteRequest type flags withMetrics r outputInterface) = (.ok d, c) ∧
      d.WellFormed ∧ ∀ seq portId, ReadsAs ((d.withSeq seq).withPortId portId).bytes type flags
        r.header (r.attributes outputInterface withMetrics) := by
  rw [sourceRouteRequest, run_bind, run_ofExcept]
  cases hvalid : r.validate with
  | error e => exact .inl ⟨e, rfl⟩
  | ok _ =>
      simp only [run_compose_draft]
      rcases edited_readsAs (r.writes outputInterface withMetrics)
        (r.regular_attributes outputInterface withMetrics)
        (r.length_attributes_le outputInterface withMetrics) type flags
        c.settings.requestCapacity with ⟨_, _, herror⟩ | ⟨d, hok, hd, hreads⟩
      · exact .inl ⟨_, by rw [herror]⟩
      · exact .inr ⟨trivial, d, by rw [hok], hd, hreads⟩

theorem requestAck_connection (d : Draft) (c : Connection) :
    (c.run (requestAck d)).2 = (c.run (request d)).2 := by
  rw [requestAck, run_bind]
  rcases c.run (request d) with ⟨_ | response, last⟩
  · rfl
  · exact congrArg Prod.snd (run_ofExcept response.ack last)

/-- All that a change to a source route sends is about this route, which is fit to be asked for. -/
theorem sent_changeSourceRoute (type : MessageType) (flags : MessageFlags) (withMetrics : Bool)
    (r : SourceRoute) (c : Connection) :
    ∃ messages,
      (c.run (changeSourceRoute type flags withMetrics r)).2.kernel.sent =
        c.kernel.sent ++ messages ∧
      ∀ message ∈ messages, r.validate = .ok () ∧ ∃ outputInterface,
        ReadsAs message type flags r.header (r.attributes outputInterface withMetrics) := by
  have hnothing : c.kernel.sent = c.kernel.sent ++ [] := (List.append_nil _).symm
  have hdevice := run_validatedDevice r c
  rw [changeSourceRoute, run_bind]
  rcases hrun : c.run (validatedDevice r) with ⟨_ | outputInterface, middle⟩ <;>
    rw [hrun] at hdevice <;> obtain rfl : middle = c := hdevice
  · exact ⟨[], hnothing, nofun⟩
  simp only [run_bind]
  rcases run_sourceRouteRequest_cases type flags withMetrics r outputInterface middle with
    ⟨e, herror⟩ | ⟨hvalid, d, hok, hd, hreads⟩
  · rw [herror]
    exact ⟨[], hnothing, nofun⟩
  rw [hok]
  obtain ⟨attempts, -, hsent, -⟩ := exists_transmissions hd middle
  refine ⟨List.replicate attempts (middle.numbered d), ?_, fun message hmessage => ?_⟩
  · simp only [requestAck_connection, hsent]
  · obtain rfl := List.eq_of_mem_replicate hmessage
    exact ⟨hvalid, outputInterface, hreads _ _⟩

/-- A call that fails before the exchange says so by a refusal, and a call that fails with a refusal
leaves the connection as it was.  In particular, a source route at fault is neither added nor
deleted, and all that is sent about source routes has a length that its family allows, not zero,
and addresses of this family only. -/
theorem refused_calls_leave_connection (c : Connection) :
    (∀ (op : Operation) (e : Error),
      ((c.run op.prepare).1 = .error e → e.isRefusal ∧ c.run op.perform = (.error e, c)) ∧
      (e.isRefusal → (c.run op.perform).1 = .error e → (c.run op.perform).2 = c)) ∧
    (∀ (query : RouteQuery) (e : Error),
      (c.routesRequest query = .error e →
        e.isRefusal ∧ c.run (queryRoutes query) = (.error e, c)) ∧
      (e.isRefusal → (c.run (queryRoutes query)).1 = .error e →
        (c.run (queryRoutes query)).2 = c)) ∧
    (∀ {α σ : Type} (kind : RecordKind α) (type : MessageType) (expected : MessageKind)
      (callback : σ → α → σ) (state : σ) (e : Error),
      (c.dumpRequest kind type = .error e → e.isRefusal ∧
        (dumpEach kind type expected callback).run c state = (.error e, c, state)) ∧
      (e.isRefusal → ((dumpEach kind type expected callback).run c state).1 = .error e →
        ((dumpEach kind type expected callback).run c state).2 = (c, state))) ∧
    (∀ r : SourceRoute, r.Faulty → ∃ reason,
      let e : Error :=
        if r.destination.length = 0 then .notSupported reason else .invalidMessage reason
      c.run (addSourceRoute r) = (.error e, c) ∧ c.run (deleteSourceRoute r) = (.error e, c)) ∧
    (∀ r : SourceRoute, ∀ change ∈ [addSourceRoute r, deleteSourceRoute r], ∃ messages,
      (c.run change).2.kernel.sent = c.kernel.sent ++ messages ∧
      ∀ message ∈ messages, ∃ type flags header attributes,
        ReadsAs message type flags header attributes ∧ header.Admits attributes) := by
  refine ⟨?_, ?_, ?_, ?_, ?_⟩
  · intro op e
    rw [op.perform_eq]
    exact run_prepared op.drafts_prepare op.failsWith_prepare
      (fun d hd => failsWith_requestAck hd) c e
  · intro query e
    have hrequest : (c.run (compose (dumpDraft .getRoute) query.write)).1 =
        c.routesRequest query := congrArg Prod.fst (run_compose_routes query c)
    rw [← hrequest]
    exact run_prepared (drafts_compose query.writes _ _) (failsWith_compose query.writes _ _)
      (fun d hd => failsWith_entries hd _ _) c e
  · intro α σ kind type expected callback state e
    exact run_dumpEach_of_refusal kind type expected callback state c e
  · intro r hfaulty
    obtain ⟨reason, hreason⟩ := SourceRoute.validate_of_faulty hfaulty
    exact ⟨reason, run_of_unfit hreason c⟩
  · intro r change hchange
    have hadmits : ∀ type flags withMetrics, ∃ messages,
        (c.run (changeSourceRoute type flags withMetrics r)).2.kernel.sent =
          c.kernel.sent ++ messages ∧
        ∀ message ∈ messages, ∃ type flags header attributes,
          ReadsAs message type flags header attributes ∧ header.Admits attributes := by
      intro type flags withMetrics
      obtain ⟨messages, hsent, hmessages⟩ := sent_changeSourceRoute type flags withMetrics r c
      refine ⟨messages, hsent, fun message hmessage => ?_⟩
      obtain ⟨hvalid, outputInterface, hreads⟩ := hmessages message hmessage
      exact ⟨_, _, _, _, hreads, SourceRoute.admits_of_validate hvalid _ _⟩
    rw [addSourceRoute_eq, deleteSourceRoute_eq, List.mem_pair] at hchange
    rcases hchange with rfl | rfl
    · exact hadmits _ _ _
    · exact hadmits _ _ _

end

end Connection

end RouteControl
