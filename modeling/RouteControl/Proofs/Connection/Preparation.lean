import RouteControl.Connection.Change
import RouteControl.Proofs.Connection.Calls
import RouteControl.Proofs.Request.Contents

/-!
# Preparing changes

Each change comes in two parts: a request is drafted, and then it is exchanged for an
acknowledgement (`Operation.perform_eq`).  Drafting only looks at the connection, and what it comes
to is well formed, whether or not the operation gets that far (`Operation.drafts_prepare`).
-/

namespace RouteControl.Connection

open Draft Bytes

variable {α : Type}

/-! ## Drafting -/

/-- The call leaves the connection as it is, and what it drafts is well formed. -/
def Drafts (call : Call Draft) : Prop :=
  ∀ c : Connection, (c.run call).2 = c ∧ ∀ d, (c.run call).1 = .ok d → d.WellFormed

theorem run_compose_draft (type : MessageType) (flags : MessageFlags) (edit : Edit Unit)
    (c : Connection) :
    c.run (compose (draft type flags) edit) =
      ((new type flags c.settings.requestCapacity).edited edit, c) := by
  have hdraft : c.run (draft type flags) =
      (.ok (new type flags c.settings.requestCapacity), c) := rfl
  rw [compose, run_bind, hdraft]
  exact run_ofExcept _ c

/-- What a request that is to be acknowledged is begun with, and its buffer. -/
def ackForm (type : MessageType) (flags : MessageFlags) (c : Connection) : Form :=
  .ofCapacity type (.request ||| .ack ||| flags) c.settings.requestCapacity

/-- Whether the parts fit depends on the buffer alone, not on the type and the flags. -/
theorem drafted_iff {edit : Edit Unit} {blocks : List Bytes} (h : Writes edit blocks)
    (type : MessageType) (flags : MessageFlags) {c : Connection} {d : Draft} :
    c.run (compose (ackDraft type flags) edit) = (.ok d, c) ↔
      (ackForm type flags c).Fits (stack [] blocks) ∧
        d = (ackForm type flags c).holding (stack [] blocks) := by
  rw [ackDraft, run_compose_draft]
  by_cases hroom : (ackForm type flags c).Fits (stack [] blocks)
  · have hedited := edited_of_room h hroom
    rw [hedited, Prod.mk.injEq, Except.ok.injEq]
    exact ⟨fun hrun => ⟨hroom, hrun.1.symm⟩, fun hd => ⟨hd.2.symm, rfl⟩⟩
  · obtain ⟨needed, hedited⟩ := edited_of_full h hroom
    rw [hedited]
    simp [hroom]

theorem drafts_compose {edit : Edit Unit} {blocks : List Bytes} (h : Writes edit blocks)
    (type : MessageType) (flags : MessageFlags) : Drafts (compose (draft type flags) edit) := by
  intro c
  rw [run_compose_draft]
  exact ⟨rfl, fun d hd => wellFormed_of_edited h hd⟩

theorem Drafts.bind {reading : Call α} {next : α → Call Draft}
    (hreading : ∀ c : Connection, (c.run reading).2 = c) (h : ∀ a, Drafts (next a)) :
    Drafts (reading >>= next) := by
  intro c
  have hc := hreading c
  rw [run_bind]
  cases hrun : c.run reading with
  | mk result c' =>
      rw [hrun] at hc
      obtain rfl : c' = c := hc
      cases result with
      | ok a => exact h a c'
      | error e => exact ⟨rfl, by intro d hd; cases hd⟩

theorem run_resolve (device : InterfaceRef) (c : Connection) :
    c.run (resolve device) = (device.resolve c.kernel.interfaces, c) :=
  run_ofExcept _ c

theorem run_validatedDevice (r : SourceRoute) (c : Connection) :
    (c.run (validatedDevice r)).2 = c := by
  rw [validatedDevice, run_bind, run_ofExcept]
  cases r.validate with
  | error e => rfl
  | ok _ => exact congrArg Prod.snd (run_ofExcept (r.resolveDevice c.kernel.interfaces) c)

theorem drafts_addSourceRouteRequest (r : SourceRoute) (outputInterface : Option UInt32) :
    Drafts (addSourceRouteRequest r outputInterface) :=
  Drafts.bind (fun c => by rw [run_ofExcept]) fun _ => drafts_compose (r.writes _ _) _ _

theorem drafts_deleteSourceRouteRequest (r : SourceRoute) (outputInterface : Option UInt32) :
    Drafts (deleteSourceRouteRequest r outputInterface) :=
  Drafts.bind (fun c => by rw [run_ofExcept]) fun _ => drafts_compose (r.writes _ _) _ _

/-! ## Operations -/

inductive Operation where
  | addAddress (device : InterfaceRef) (address : Prefix)
  | deleteAddress (device : InterfaceRef) (address : Prefix)
  | addRule (rule : Rule)
  | deleteRule (rule : Rule)
  | addSourceRoute (route : SourceRoute)
  | deleteSourceRoute (route : SourceRoute)

namespace Operation

def perform : Operation → Call Unit
  | addAddress device address => Connection.addAddress device address
  | deleteAddress device address => Connection.deleteAddress device address
  | addRule rule => Connection.addRule rule
  | deleteRule rule => Connection.deleteRule rule
  | addSourceRoute route => Connection.addSourceRoute route
  | deleteSourceRoute route => Connection.deleteSourceRoute route

/-- What comes before the exchange: all checks and look-ups, and the request. -/
def prepare : Operation → Call Draft
  | addAddress device address => do addAddressRequest ⟨← resolve device, address⟩
  | deleteAddress device address => do deleteAddressRequest ⟨← resolve device, address⟩
  | addRule rule => addRuleRequest rule
  | deleteRule rule => deleteRuleRequest rule
  | addSourceRoute route => do addSourceRouteRequest route (← validatedDevice route)
  | deleteSourceRoute route => do deleteSourceRouteRequest route (← validatedDevice route)

theorem perform_eq (op : Operation) : op.perform = op.prepare >>= requestAck := by
  cases op with
  | addRule | deleteRule => rfl
  | addAddress | deleteAddress | addSourceRoute | deleteSourceRoute =>
      exact (bind_assoc _ _ _).symm

theorem drafts_prepare (op : Operation) : Drafts op.prepare := by
  cases op with
  | addAddress device address =>
      exact Drafts.bind (fun c => by rw [run_resolve])
        fun index => drafts_compose (HostAddress.writes ⟨index, address⟩) _ _
  | deleteAddress device address =>
      exact Drafts.bind (fun c => by rw [run_resolve])
        fun index => drafts_compose (HostAddress.writes ⟨index, address⟩) _ _
  | addRule rule => exact drafts_compose rule.writes _ _
  | deleteRule rule => exact drafts_compose rule.writes _ _
  | addSourceRoute route =>
      exact Drafts.bind (run_validatedDevice route) (drafts_addSourceRouteRequest route)
  | deleteSourceRoute route =>
      exact Drafts.bind (run_validatedDevice route) (drafts_deleteSourceRouteRequest route)

theorem run_perform {op : Operation} {c : Connection} {d : Draft}
    (h : (c.run op.prepare).1 = .ok d) : c.run op.perform = c.run (requestAck d) := by
  have hc := (op.drafts_prepare c).1
  rw [op.perform_eq, run_bind]
  cases hrun : c.run op.prepare with
  | mk result c' =>
      rw [hrun] at h hc
      obtain rfl : result = .ok d := h
      obtain rfl : c' = c := hc
      rfl

end Operation

end RouteControl.Connection
