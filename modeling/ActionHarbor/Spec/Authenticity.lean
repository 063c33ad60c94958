import ActionHarbor.Spec.AtMostOnce

/-!
# Capability authenticity

`parseAndValidateCapability` compares the presented object with the presented
request, and `CapabilityRegistry.consume` compares only its id and nonce with
what was recorded. Nothing compares the scope or the expiry of the presented
object with the recorded one, so a call is authentic exactly when its own request
and expiry are.

## Key results

- `byId_replay`: an entry of the registry is the last capability recorded under
  its id, up to the status
- `executing_authentic_iff`: when the capability passed to the adapter is the
  recorded one
-/

namespace ActionHarbor

/-! ## Registry histories -/

/-- One operation on the registry. -/
inductive RegistryOperation where
  | record (capability : Capability)
  | consume (capabilityId nonce : JsString)

/-- Apply one operation; a refused consumption changes nothing. -/
def CapabilityRegistry.apply (registry : CapabilityRegistry) :
    RegistryOperation → CapabilityRegistry
  | .record capability => registry.record capability
  | .consume capabilityId nonce =>
    match registry.consume capabilityId nonce with
    | .error _ => registry
    | .ok registry => registry

/-- The registry a history leads to, oldest operation first. -/
def CapabilityRegistry.replay (history : List RegistryOperation) : CapabilityRegistry :=
  history.foldl CapabilityRegistry.apply {}

/-- The capability a history last recorded under an id. -/
def recordedUnder (history : List RegistryOperation) (id : JsString) : Option Capability :=
  history.foldl
    (fun found operation =>
      match operation with
      | .record capability => if capability.id = id then some capability else found
      | .consume _ _ => found)
    none

/-- An entry of the registry is the recorded capability, up to the status. -/
theorem byId_replay (history : List RegistryOperation) (id : JsString) :
    ∃ status : Option CapabilityStatus,
      (CapabilityRegistry.replay history).byId id =
        (recordedUnder history id).map fun recorded =>
          { recorded with status := status.getD recorded.status } := by
  induction history using List.reverseRecOn with
  | nil => exact ⟨none, rfl⟩
  | append_singleton history operation ih =>
    obtain ⟨status, hentry⟩ := ih
    -- a record replaces what was there, a consume changes the status alone
    rw [CapabilityRegistry.replay, recordedUnder, List.foldl_append, List.foldl_append,
      ← CapabilityRegistry.replay, ← recordedUnder]
    cases operation with
    | record capability =>
      by_cases hid : capability.id = id
      · subst hid
        exact ⟨none, by simp [CapabilityRegistry.apply, CapabilityRegistry.record]⟩
      · exact ⟨status, by
          simp [CapabilityRegistry.apply, CapabilityRegistry.record, hid,
            Function.update_of_ne (Ne.symm hid), hentry]⟩
    | consume capabilityId nonce =>
      simp only [List.foldl_cons, List.foldl_nil, CapabilityRegistry.apply]
      split
      · exact ⟨status, hentry⟩
      · rename_i registry hconsume
        obtain ⟨stored, hstored, -, -, hupdate⟩ := CapabilityRegistry.consume_eq_ok hconsume
        rw [hupdate]
        by_cases hid : id = capabilityId
        · subst hid
          rw [hentry, Option.map_eq_some_iff] at hstored
          obtain ⟨recorded, hrecorded, rfl⟩ := hstored
          exact ⟨some .consumed, by rw [Function.update_self, hrecorded]; rfl⟩
        · exact ⟨status, by rw [Function.update_of_ne hid, hentry]⟩

section
variable [Host]

/-! ## Authenticity -/

/-- Two capabilities agree in everything but the id and the status. -/
structure Agrees (presented recorded : Capability) : Prop where
  principalId : presented.principalId = recorded.principalId
  actionType : presented.actionType = recorded.actionType
  resourceId : presented.resourceId = recorded.resourceId
  proposalHash : presented.proposalHash = recorded.proposalHash
  expiresAt : presented.expiresAt = recorded.expiresAt
  nonce : presented.nonce = recorded.nonce

omit [Host] in
/-- The registry consumes only what was recorded under this id and nonce. -/
theorem recordedUnder_of_consume {history : List RegistryOperation} {registry : CapabilityRegistry}
    {capabilityId nonce : JsString}
    (h : (CapabilityRegistry.replay history).consume capabilityId nonce = .ok registry) :
    ∃ recorded, recordedUnder history capabilityId = some recorded ∧ recorded.nonce = nonce := by
  obtain ⟨stored, hstored, rfl, -, -⟩ := CapabilityRegistry.consume_eq_ok h
  obtain ⟨status, hentry⟩ := byId_replay history capabilityId
  rw [hentry, Option.map_eq_some_iff] at hstored
  obtain ⟨recorded, hrecorded, rfl⟩ := hstored
  exact ⟨recorded, hrecorded, rfl⟩

/-- The request names the scope of the capability recorded under the presented id, and
    the presented expiry is the recorded one. -/
def HonoursRecord (history : List RegistryOperation) (request : CapabilityRequest)
    (presented : Capability) : Prop :=
  ∀ recorded, recordedUnder history presented.id = some recorded →
    request.principalId = recorded.principalId ∧ request.actionType = recorded.actionType ∧
    request.resourceId = recorded.resourceId ∧ request.proposalHash = recorded.proposalHash ∧
    presented.expiresAt = recorded.expiresAt

/-- Over every registry history, a call hands the adapter only a capability that
    agrees with the one recorded under its id exactly when it is not admitted, or its
    request and expiry are those of that record. -/
theorem executing_authentic_iff (history : List RegistryOperation) (store : OperationStore)
    (ledger : AuditLedger) (input : ExecuteActionInput) (reads : CallReads) :
    (∀ call, (executeAction ⟨.replay history, store, ledger⟩ input reads).2 =
        .waiting (.executing call) →
      ∃ recorded, recordedUnder history call.capability.id = some recorded ∧
        Agrees call.capability recorded) ↔
    ∀ capability, AdmittedWith ⟨.replay history, store, ledger⟩ input reads capability →
      HonoursRecord history input.request capability := by
  constructor
  · intro hauthentic capability hadmitted recorded hrecorded
    obtain ⟨call, hcall, rfl⟩ := (executing_iff _ input reads capability).mpr hadmitted
    obtain ⟨recorded', hrecorded', hagrees⟩ := hauthentic call hcall
    obtain rfl := Option.some.inj (hrecorded.symm.trans hrecorded')
    obtain ⟨_, _, hguards, -⟩ := hadmitted
    -- the guards tie the capability to the request, the record agrees with the capability
    obtain ⟨hprincipal, haction, hresource, hproposal⟩ := hguards.scope
    exact ⟨hprincipal.symm.trans hagrees.principalId, haction.symm.trans hagrees.actionType,
      hresource.symm.trans hagrees.resourceId, hproposal.symm.trans hagrees.proposalHash,
      hagrees.expiresAt⟩
  · intro hhonours call hcall
    have hadmitted := (executing_iff _ input reads call.capability).mp ⟨call, hcall, rfl⟩
    obtain ⟨_, _, hguards, -, -, hconsume, -⟩ := id hadmitted
    -- the nonce is all that `consume` compares
    obtain ⟨recorded, hrecorded, hnonce⟩ := recordedUnder_of_consume hconsume
    obtain ⟨hprincipal, haction, hresource, hproposal⟩ := hguards.scope
    obtain ⟨hprincipal', haction', hresource', hproposal', hexpires⟩ :=
      hhonours call.capability hadmitted recorded hrecorded
    exact ⟨recorded, hrecorded, hprincipal.trans hprincipal', haction.trans haction',
      hresource.trans hresource', hproposal.trans hproposal', hexpires, hnonce.symm⟩

end

/-! ## A forged scope on Node -/

section
attribute [local instance] node
open Sample

/-- The request of a refund on another resource. -/
def refundRequest : CapabilityRequest :=
  { makeRequest with actionType := .issueRefund, resourceId := js "order-1" }

/-- A ticket capability edited into a refund capability on another resource, with a
    distant expiry. -/
def forgedCapability : Capability :=
  { makeCapability refundRequest "cap_000001" "nonce_000001" with
    expiresAt := js "2099-01-01T00:00:00.000Z" }

/-- The registry has recorded the ticket capability. -/
def ticketHistory : List RegistryOperation :=
  [.record (makeCapability makeRequest "cap_000001" "nonce_000001")]

/-- The clock readings an hour later, past the recorded expiry. -/
def lateReads : CallReads :=
  ⟨now + 3600000, ⟨js "evt_000001", now + 3600000⟩, now + 3600000⟩

/-- The adapter is called with the forged capability. -/
theorem forgedCapability_executes : ∃ call recorded,
    (executeAction ⟨.replay ticketHistory, {}, {}⟩
      (makeInput forgedCapability refundRequest "op_1" "key-1") lateReads).2 =
        .waiting (.executing call) ∧
    recordedUnder ticketHistory call.capability.id = some recorded ∧
    isExpired recorded.expiresAt lateReads.now = true ∧ ¬ Agrees call.capability recorded ∧
    call.capability.actionType = .issueRefund ∧ recorded.actionType = .createInternalTicket := by
  obtain ⟨call, hcall, hcapability⟩ := (executing_iff ⟨.replay ticketHistory, {}, {}⟩
    (makeInput forgedCapability refundRequest "op_1" "key-1") lateReads forgedCapability).mpr
    ⟨_, _, ⟨rfl, rfl⟩, rfl, rfl, rfl, rfl⟩
  refine ⟨call, makeCapability makeRequest "cap_000001" "nonce_000001", hcall, ?_⟩
  rw [hcapability]
  exact ⟨rfl, by decide +kernel, fun h => absurd h.actionType (by decide), rfl, rfl⟩

end

end ActionHarbor
