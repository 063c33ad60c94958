import ActionHarbor.ForStd.Transition
import ActionHarbor.Model.Interleaving
import ActionHarbor.Model.Node
import ActionHarbor.Spec.ExecutionSteps

/-!
# Steps of the interleaving

The inversion lemma of `World.step`, what a step changes in each part of the
state, and the bookkeeping invariants every reachable state has: call numbers
are fresh, and a call in flight has left its start and its adapter call in the
trace.

## Key results

- `World.step_cases`: every step is one of three kinds
- `World.StepCases.recordOf_cases`: stores change only when a call settles, by one record
- `World.StepCases.trace_extends`: the trace only grows
- `World.Booked.step`: the bookkeeping invariant is kept
-/

namespace ActionHarbor

variable {ι : Type}

namespace World

/-! ## Parts of the state -/

/-- The registry a session shares is the one of the world. -/
@[simp] theorem shared_registry (w : World ι) (session : ι) :
    (w.shared session).registry = w.registry := rfl

/-- The store a session shares is its own. -/
@[simp] theorem shared_operationStore (w : World ι) (session : ι) :
    (w.shared session).operationStore = w.stores session := rfl

/-- Entering a call leaves the registry as it is. -/
@[simp] theorem enter_registry (w : World ι) (session : ι) (input : ExecuteActionInput)
    (progress : CallProgress) : (w.enter session input progress).registry = w.registry := by
  cases progress <;> rfl

/-- Entering a call leaves every store as it is. -/
@[simp] theorem enter_stores (w : World ι) (session : ι) (input : ExecuteActionInput)
    (progress : CallProgress) : (w.enter session input progress).stores = w.stores := by
  cases progress <;> rfl

/-- Entering a call uses one call id, whether the call waits or not. -/
@[simp] theorem enter_nextCall (w : World ι) (session : ι) (input : ExecuteActionInput)
    (progress : CallProgress) : (w.enter session input progress).nextCall = w.nextCall + 1 := by
  cases progress <;> rfl

/-- What a call's progress adds to the trace after its start. -/
def progressTrace (c : CallId) (session : ι) : CallProgress → List (Observation ι)
  | .done settled => [.settled c settled]
  | .waiting waiting => invocation c session waiting

/-- Entering a call adds its start and what it did at once to the trace. -/
@[simp] theorem enter_trace (w : World ι) (session : ι) (input : ExecuteActionInput)
    (progress : CallProgress) :
    (w.enter session input progress).trace =
      w.trace ++ .started w.nextCall session input :: progressTrace w.nextCall session progress := by
  cases progress <;> rfl

@[simp] theorem leave_registry (w : World ι) (c : CallId) (wakeup : Wakeup) (settled : Settled) :
    (w.leave c wakeup settled).registry = w.registry := rfl

@[simp] theorem leave_stores (w : World ι) (c : CallId) (wakeup : Wakeup) (settled : Settled) :
    (w.leave c wakeup settled).stores = w.stores := rfl

/-- A call that is left is pending no more; the others are. -/
@[simp] theorem leave_pending (w : World ι) (c : CallId) (wakeup : Wakeup) (settled : Settled) :
    (w.leave c wakeup settled).pending = Function.update w.pending c none := rfl

@[simp] theorem leave_nextCall (w : World ι) (c : CallId) (wakeup : Wakeup) (settled : Settled) :
    (w.leave c wakeup settled).nextCall = w.nextCall := rfl

/-- Leaving a call adds what woke it and how it settled to the trace. -/
@[simp] theorem leave_trace (w : World ι) (c : CallId) (wakeup : Wakeup) (settled : Settled) :
    (w.leave c wakeup settled).trace = w.trace ++ [.woke c wakeup, .settled c settled] := rfl

section
variable [DecidableEq ι]

@[simp] theorem setShared_registry (w : World ι) (session : ι) (shared : Shared) :
    (w.setShared session shared).registry = shared.registry := rfl

/-- A session that writes back its shared state changes its own store only. -/
@[simp] theorem setShared_stores (w : World ι) (session : ι) (shared : Shared) :
    (w.setShared session shared).stores =
      Function.update w.stores session shared.operationStore := rfl

@[simp] theorem setShared_pending (w : World ι) (session : ι) (shared : Shared) :
    (w.setShared session shared).pending = w.pending := rfl

@[simp] theorem setShared_nextCall (w : World ι) (session : ι) (shared : Shared) :
    (w.setShared session shared).nextCall = w.nextCall := rfl

@[simp] theorem setShared_trace (w : World ι) (session : ι) (shared : Shared) :
    (w.setShared session shared).trace = w.trace := rfl

end

/-! ## Inversion -/

section
variable [Host] [DecidableEq ι]

/-- The three kinds of step. -/
inductive StepCases (w : World ι) : Event ι → World ι → Prop
  | recorded (capability : Capability) :
      StepCases w (.record capability)
        { w with
          registry := w.registry.record capability
          trace := w.trace ++ [.recorded capability] }
  | started (session : ι) (input : ExecuteActionInput) (reads : CallReads) (shared : Shared)
      (progress : CallProgress)
      (houtcome : StartOutcome (w.shared session) input reads shared progress) :
      StepCases w (.start session input reads)
        ((w.setShared session shared).enter session input progress)
  | woke (c : CallId) (wakeup : Wakeup) (stamp : Stamp) (session : ι) (waiting : Waiting)
      (shared : Shared) (settled : Settled) (hpending : w.pending c = some (session, waiting))
      (hsettlement : Settlement (w.shared session) waiting wakeup shared settled) :
      StepCases w (.wake c wakeup stamp) ((w.setShared session shared).leave c wakeup settled)

/-- Every step is one of the three kinds. -/
theorem step_cases {w w' : World ι} {e : Event ι} (h : w.step e = some w') :
    StepCases w e w' := by
  cases e with
  | record capability =>
    obtain rfl := Option.some.inj h
    exact .recorded capability
  | start session input reads =>
    obtain rfl := Option.some.inj h
    exact .started session input reads _ _ (executeAction_cases (w.shared session) input reads)
  | wake c wakeup stamp =>
    simp only [step] at h
    cases hpending : w.pending c with
    | none => simp only [hpending] at h; cases h
    | some entry =>
      obtain ⟨session, waiting⟩ := entry
      simp only [hpending, Option.map_eq_some_iff] at h
      obtain ⟨result, hresume, rfl⟩ := h
      exact .woke c wakeup stamp session waiting _ _ hpending (resume_cases hresume)

end

end World

/-! ## The operation store -/

namespace OperationStore

/-- What is recorded is found under its key. -/
@[simp] theorem byIdempotencyKey_record (store : OperationStore) (record : OperationRecord) :
    (store.record record).byIdempotencyKey record.idempotencyKey = some record :=
  Function.update_self ..

/-- Other keys are left alone. -/
theorem byIdempotencyKey_record_of_ne {store : OperationStore} {record : OperationRecord}
    {key : JsString} (h : key ≠ record.idempotencyKey) :
    (store.record record).byIdempotencyKey key = store.byIdempotencyKey key :=
  Function.update_of_ne h _ _

/-- It is found under its operation id too. -/
@[simp] theorem lookup_record (store : OperationStore) (record : OperationRecord) :
    (store.record record).lookup record.operationId = some record :=
  Function.update_self ..

/-- Other operation ids are left alone. -/
theorem lookup_record_of_ne {store : OperationStore} {record : OperationRecord}
    {operationId : JsString} (h : operationId ≠ record.operationId) :
    (store.record record).lookup operationId = store.lookup operationId :=
  Function.update_of_ne h _ _

end OperationStore

/-! ## What a call changes -/

section
variable [Host]

/-- The synchronous part of a call leaves the operation store alone. -/
theorem StartOutcome.operationStore_eq {shared shared' : Shared} {input : ExecuteActionInput}
    {reads : CallReads} {progress : CallProgress}
    (h : StartOutcome shared input reads shared' progress) :
    shared'.operationStore = shared.operationStore := by
  cases h <;> rfl

/-- The continuation of a call leaves the registry alone. -/
theorem Settlement.registry_eq {shared shared' : Shared} {waiting : Waiting} {wakeup : Wakeup}
    {settled : Settled} (h : Settlement shared waiting wakeup shared' settled) :
    shared'.registry = shared.registry := by
  cases h <;> rfl

/-- A call that waits keeps its arguments. -/
theorem StartOutcome.waiting_input {shared shared' : Shared} {input : ExecuteActionInput}
    {reads : CallReads} {waiting : Waiting}
    (h : StartOutcome shared input reads shared' (.waiting waiting)) : waiting.input = input := by
  cases h with
  | lookingUp => rfl
  | entered => simp only [invokeAdapter]; split <;> rfl

/-- The shape of every record: a receipt is kept with a verified success, and only
    there. -/
structure OperationRecord.WellFormed (record : OperationRecord) : Prop where
  succeeded : record.state = .succeeded →
    record.receipt.isUndefined = false ∧ record.postconditionReport = some { verified := true }
  notSucceeded : record.state ≠ .succeeded → record.receipt = .undefined
  failed : record.state = .failed → record.errorMessage.isSome

/-- Schemas reject `undefined`, so what verifies is defined. -/
theorem isUndefined_of_verified {actionType : ActionType} {receipt : JsValue}
    {expected : PostconditionExpectation}
    (h : verifyPostcondition actionType receipt expected = true) : receipt.isUndefined = false := by
  cases receipt with
  | undefined => cases actionType <;> cases expected <;> cases h
  | _ => rfl

/-- What the store held under a waiting call's key when it began to wait. -/
def Waiting.found : Waiting → Option OperationRecord
  | .executing _ | .refused _ _ => none
  | .lookingUp call => some call.prior

/-- A wakeup that leaves a record: an inconclusive or failed lookup does not, nor does
    a rejection that throws. -/
def Waiting.writes : Waiting → Wakeup → Bool
  | .executing _, .executeRejected error => error.errorMessage.isSome
  | .lookingUp _, .lookupSettled .rejected => false
  | .lookingUp _, .lookupSettled (.resolved value) =>
    match value.getProp (js "status") with
    | none => false
    | some status => !status.isString (js "unknown")
  | _, _ => true

/-- The record a call may write when this wakeup settles it. -/
structure WrittenBy (waiting : Waiting) (wakeup : Wakeup) (record : OperationRecord) : Prop where
  idempotencyKey_eq : record.idempotencyKey = waiting.idempotencyKey
  operationId_eq : record.operationId = waiting.input.operation.operationId
  payloadHash_eq : record.payloadHash = waiting.payloadHash
  writes : waiting.writes wakeup = true
  /-- a reconciliation always decides the outcome -/
  decided : waiting.reconciles = true → record.state ≠ .unknownOutcome
  wellFormed : record.WellFormed
  /-- a success is the receipt this wakeup brought, verified in this call -/
  verified : record.state = .succeeded → Receives waiting wakeup record.receipt ∧
    verifyPostcondition waiting.input.request.actionType record.receipt
      waiting.input.postcondition = true

omit [Host] in
/-- A wakeup that brings a receipt leaves a record. -/
theorem Receives.writes {waiting : Waiting} {wakeup : Wakeup} {receipt : JsValue}
    (h : Receives waiting wakeup receipt) : waiting.writes wakeup = true := by
  cases h with
  | executed => rfl
  | found call value status hstatus hfound => simp [Waiting.writes, hstatus, hfound]

/-- The record of a verified receipt. -/
theorem writtenBy_succeededRecord {waiting : Waiting} {wakeup : Wakeup} {receipt : JsValue}
    (hreceives : Receives waiting wakeup receipt)
    (hverified : verifyPostcondition waiting.input.request.actionType receipt
      waiting.input.postcondition = true) :
    WrittenBy waiting wakeup (waiting.succeededRecord receipt) where
  idempotencyKey_eq := rfl
  operationId_eq := rfl
  payloadHash_eq := rfl
  writes := hreceives.writes
  decided _ h := by cases h
  wellFormed :=
    { succeeded := fun _ => ⟨isUndefined_of_verified hverified, rfl⟩
      notSucceeded := fun h => absurd rfl h
      failed := fun h => by cases h }
  verified _ := ⟨hreceives, hverified⟩

/-- The record of a receipt that did not verify. -/
theorem writtenBy_unverifiedRecord {waiting : Waiting} {wakeup : Wakeup}
    {receipt : JsValue} (hreceives : Receives waiting wakeup receipt) :
    WrittenBy waiting wakeup waiting.unverifiedRecord where
  idempotencyKey_eq := rfl
  operationId_eq := rfl
  payloadHash_eq := rfl
  writes := hreceives.writes
  decided _ h := by cases h
  wellFormed :=
    { succeeded := fun h => by cases h
      notSucceeded := fun _ => rfl
      failed := fun _ => rfl }
  verified h := by cases h

/-- The record of a racing call that ended without a receipt. -/
theorem writtenBy_outcomeRecord {call : RacingCall} {waiting : Waiting} {wakeup : Wakeup}
    {state : OperationState} {errorMessage : Option JsString}
    (hwaiting : waiting = .executing call ∨ ∃ reasonCode, waiting = .refused call reasonCode)
    (hwrites : waiting.writes wakeup = true) (hstate : state ≠ .succeeded)
    (hmessage : state = .failed → errorMessage.isSome) :
    WrittenBy waiting wakeup (call.outcomeRecord state errorMessage) := by
  have hwellFormed : (call.outcomeRecord state errorMessage).WellFormed :=
    { succeeded := fun h => absurd h hstate
      notSucceeded := fun _ => rfl
      failed := hmessage }
  have hnotSucceeded : (call.outcomeRecord state errorMessage).state ≠ .succeeded := hstate
  -- the two kinds of waiting call write the same record
  rcases hwaiting with rfl | ⟨reasonCode, rfl⟩ <;>
    exact
      { idempotencyKey_eq := rfl
        operationId_eq := rfl
        payloadHash_eq := rfl
        writes := hwrites
        decided := fun h => by cases h
        wellFormed := hwellFormed
        verified := fun h => absurd h hnotSucceeded }

/-- A settling call writes at most one record, and an executing one that does not
    has thrown. -/
theorem Settlement.operationStore_cases {shared shared' : Shared} {waiting : Waiting}
    {wakeup : Wakeup} {settled : Settled}
    (h : Settlement shared waiting wakeup shared' settled) :
    (∃ record, shared'.operationStore = shared.operationStore.record record ∧
      WrittenBy waiting wakeup record) ∨
    (shared'.operationStore = shared.operationStore ∧
      (waiting.reconciles = true ∨ settled = .threw .unprintableRejection)) := by
  cases h with
  | verified _ _ _ _ hreceives hverified =>
    exact .inl ⟨_, rfl, writtenBy_succeededRecord hreceives hverified⟩
  | unverified _ _ _ _ hreceives => exact .inl ⟨_, rfl, writtenBy_unverifiedRecord hreceives⟩
  | timedOut call =>
    exact .inl ⟨_, rfl, writtenBy_outcomeRecord (.inl rfl) rfl (by decide) (by decide)⟩
  | rejected call error errorMessage hmessage =>
    have hwrites : (Waiting.executing call).writes (.executeRejected error) = true := by
      simp [Waiting.writes, hmessage]
    exact .inl ⟨_, rfl, writtenBy_outcomeRecord (.inl rfl) hwrites (by decide) (fun _ => rfl)⟩
  | refusal call reasonCode =>
    exact .inl ⟨_, rfl,
      writtenBy_outcomeRecord (.inr ⟨reasonCode, rfl⟩) rfl (by decide) (fun _ => rfl)⟩
  | crashed => exact .inr ⟨rfl, .inr rfl⟩
  | inconclusive | lookupMalformed | lookupRejected => exact .inr ⟨rfl, .inl rfl⟩

end

namespace World

section
variable [Host] [DecidableEq ι]

/-- The record a session's store holds under an idempotency key. -/
def recordOf (w : World ι) (session : ι) (key : JsString) : Option OperationRecord :=
  (w.stores session).byIdempotencyKey key

/-- A key's record changes only when a call with that key settles, to the record
    that call writes. -/
theorem StepCases.recordOf_cases {w w' : World ι} {e : Event ι} (h : w.StepCases e w')
    (session : ι) (key : JsString) :
    w'.recordOf session key = w.recordOf session key ∨
    ∃ c wakeup stamp waiting shared settled record,
      e = .wake c wakeup stamp ∧ w.pending c = some (session, waiting) ∧
      Settlement (w.shared session) waiting wakeup shared settled ∧
      shared.operationStore = (w.stores session).record record ∧
      WrittenBy waiting wakeup record ∧ waiting.idempotencyKey = key ∧
      w'.recordOf session key = some record := by
  cases h with
  | recorded => exact .inl rfl
  | started session' input reads shared progress houtcome =>
    left
    have hstore := houtcome.operationStore_eq
    -- starting a call never touches the store
    by_cases hs : session = session'
    · subst hs; simp [recordOf, hstore]
    · simp [recordOf, hs]
  | woke c wakeup stamp session' waiting shared settled hpending hsettlement =>
    by_cases hs : session = session'
    · subst hs
      -- only a record under this very key changes the answer
      rcases hsettlement.operationStore_cases with ⟨record, hstore, hwritten⟩ | ⟨hstore, -⟩
      · by_cases hkey : waiting.idempotencyKey = key
        · refine .inr ⟨c, wakeup, stamp, waiting, shared, settled, record, rfl, hpending,
            hsettlement, hstore, hwritten, hkey, ?_⟩
          simp [recordOf, hstore, OperationStore.record, hwritten.idempotencyKey_eq, hkey]
        · left
          simp [recordOf, hstore, OperationStore.record, hwritten.idempotencyKey_eq,
            Function.update_of_ne (Ne.symm hkey)]
      · left
        simp [recordOf, hstore]
    · left
      simp [recordOf, hs]

/-- A key that has a record keeps having one. -/
theorem StepCases.recordOf_persists {w w' : World ι} {e : Event ι} (h : w.StepCases e w')
    {session : ι} {key : JsString} (hrecord : w.recordOf session key ≠ none) :
    w'.recordOf session key ≠ none := by
  rcases h.recordOf_cases session key with heq | ⟨_, _, _, _, _, _, record, _, _, _, _, _, _, heq⟩
  · rwa [heq]
  · simp [heq]

/-- The trace only grows. -/
theorem StepCases.trace_extends {w w' : World ι} {e : Event ι} (h : w.StepCases e w') :
    w.trace <+: w'.trace := by
  cases h <;> simp

/-- A start in the trace was there before, or is the new call's. -/
theorem StepCases.started_cases {w w' : World ι} {e : Event ι} (h : w.StepCases e w') {c : CallId}
    {session : ι} {input : ExecuteActionInput} (hstarted : .started c session input ∈ w'.trace) :
    .started c session input ∈ w.trace ∨
      (c = w.nextCall ∧ ∃ reads, e = .start session input reads) := by
  cases h with
  | recorded => exact .inl (by simpa using hstarted)
  | started session' input' reads shared progress houtcome =>
    rw [enter_trace, setShared_trace, List.mem_append, List.mem_cons] at hstarted
    rcases hstarted with hold | hnew | hprogress
    · exact .inl hold
    · obtain ⟨rfl, rfl, rfl⟩ := Observation.started.inj hnew
      exact .inr ⟨rfl, reads, rfl⟩
    · cases progress with
      | done => simp [progressTrace] at hprogress
      | waiting waiting => cases waiting <;> simp [progressTrace, invocation] at hprogress
  | woke => exact .inl (by simpa using hstarted)

/-- A wakeup in the trace was there before, or is the one of the step. -/
theorem StepCases.woke_cases {w w' : World ι} {e : Event ι} (h : w.StepCases e w') {c : CallId}
    {wakeup : Wakeup} (hwoke : .woke c wakeup ∈ w'.trace) :
    .woke c wakeup ∈ w.trace ∨ ∃ stamp, e = .wake c wakeup stamp := by
  cases h with
  | recorded => exact .inl (by simpa using hwoke)
  | started session input reads shared progress houtcome =>
    rw [enter_trace, setShared_trace, List.mem_append, List.mem_cons] at hwoke
    rcases hwoke with hold | hnew | hprogress
    · exact .inl hold
    · cases hnew
    · cases progress with
      -- what a call does first is not a wakeup
      | done => simp [progressTrace] at hprogress
      | waiting waiting => cases waiting <;> simp [progressTrace, invocation] at hprogress
  | woke c' wakeup' stamp session waiting shared settled hpending hsettlement =>
    rw [leave_trace, setShared_trace, List.mem_append, List.mem_cons, List.mem_singleton] at hwoke
    rcases hwoke with hold | hnew | hsettled
    · exact .inl hold
    · obtain ⟨rfl, rfl⟩ := Observation.woke.inj hnew
      exact .inr ⟨stamp, rfl⟩
    · cases hsettled

end

end World

/-! ## Bookkeeping -/

/-- The call an observation is about. -/
def Observation.callId : Observation ι → Option CallId
  | .recorded _ => none
  | .started c _ _ | .executeInvoked c _ _ _ _ | .lookupInvoked c _ _ | .woke c _ | .settled c _ =>
    some c

namespace World

/-- This call was started with this input and returned `ok` with this receipt. -/
def Succeeded (w : World ι) (session : ι) (c : CallId) (input : ExecuteActionInput)
    (receipt : JsValue) : Prop :=
  .started c session input ∈ w.trace ∧ ∃ replay operationId reasonCode auditEvents,
    .settled c (.returned (.ok receipt replay operationId reasonCode auditEvents)) ∈ w.trace

/-- What holds of the call numbers and the trace in every reachable state. -/
structure Booked (w : World ι) : Prop where
  /-- a number not yet given out belongs to no call in flight -/
  pending_lt : ∀ c session waiting, w.pending c = some (session, waiting) → c < w.nextCall
  /-- nor to any observation -/
  trace_lt : ∀ o ∈ w.trace, ∀ c, o.callId = some c → c < w.nextCall
  /-- a call in flight was started, and has invoked the adapter it waits for -/
  traced : ∀ c session waiting, w.pending c = some (session, waiting) →
    .started c session waiting.input ∈ w.trace ∧
      ∀ o ∈ invocation c session waiting, o ∈ w.trace
  /-- a number names one call -/
  started_unique : ∀ c session input session' input', .started c session input ∈ w.trace →
    .started c session' input' ∈ w.trace → session = session' ∧ input = input'

/-- Nothing has happened yet; the registry and the ledgers may hold anything. -/
structure Fresh (w : World ι) : Prop where
  stores : ∀ session, w.stores session = {}
  pending : ∀ c, w.pending c = none
  trace : w.trace = []

/-- Nothing is pending or traced in a fresh world, so its books are kept. -/
theorem Fresh.booked {w : World ι} (h : w.Fresh) : w.Booked where
  pending_lt c session waiting hc := by rw [h.pending] at hc; cases hc
  trace_lt o ho := by rw [h.trace] at ho; cases ho
  traced c session waiting hc := by rw [h.pending] at hc; cases hc
  started_unique c session input session' input' hstarted := by rw [h.trace] at hstarted; cases hstarted

/-- What a call does at the adapter boundary is about that call. -/
theorem callId_of_mem_invocation {c : CallId} {session : ι} {waiting : Waiting}
    {o : Observation ι} (h : o ∈ invocation c session waiting) : o.callId = some c := by
  cases waiting with
  | executing _ | lookingUp _ => rw [invocation, List.mem_singleton] at h; rw [h]; rfl
  | refused _ _ => cases h

/-- What a start adds to the trace is about the new call. -/
theorem callId_of_mem_progressTrace {c : CallId} {session : ι} {progress : CallProgress}
    {o : Observation ι} (h : o ∈ progressTrace c session progress) : o.callId = some c := by
  cases progress with
  | done _ => rw [progressTrace, List.mem_singleton] at h; rw [h]; rfl
  | waiting _ => exact callId_of_mem_invocation h

section
variable [Host] [DecidableEq ι]

/-- The calls in flight after a step: those before it that did not wake, and the
    new call when it waits. -/
theorem StepCases.pending_cases {w w' : World ι} {e : Event ι} (h : w.StepCases e w')
    (hbooked : w.Booked) {c : CallId} {session : ι} {waiting : Waiting}
    (hc : w'.pending c = some (session, waiting)) :
    (w.pending c = some (session, waiting) ∧ c ≠ w.nextCall ∧
      ∀ wakeup stamp, e ≠ .wake c wakeup stamp) ∨
    (c = w.nextCall ∧ ∃ input reads shared,
      e = .start session input reads ∧
      StartOutcome (w.shared session) input reads shared (.waiting waiting) ∧
      w'.trace = w.trace ++ .started c session input :: invocation c session waiting) := by
  have hne : w.pending c = some (session, waiting) → c ≠ w.nextCall := fun h =>
    Nat.ne_of_lt (hbooked.pending_lt c session waiting h)
  -- a waiting call is an old one, or the one the step has numbered
  cases h with
  | recorded => exact .inl ⟨hc, hne hc, fun _ _ h => by cases h⟩
  | started session' input reads shared progress houtcome =>
    cases progress with
    | done settled => exact .inl ⟨hc, hne hc, fun _ _ h => by cases h⟩
    | waiting waiting' =>
      by_cases hnew : c = w.nextCall
      · subst hnew
        simp only [enter, setShared_nextCall, Function.update_self, Option.some.injEq,
          Prod.mk.injEq] at hc
        obtain ⟨rfl, rfl⟩ := hc
        exact .inr ⟨rfl, input, reads, shared, rfl, houtcome, rfl⟩
      · simp only [enter, setShared_nextCall, setShared_pending, Function.update_of_ne hnew] at hc
        exact .inl ⟨hc, hnew, fun _ _ h => by cases h⟩
  | woke c' wakeup stamp session' waiting' shared settled hpending hsettlement =>
    by_cases hwoken : c = c'
    · subst hwoken
      simp at hc
    · simp only [leave_pending, setShared_pending, Function.update_of_ne hwoken] at hc
      exact .inl ⟨hc, hne hc, fun _ _ heq => hwoken (Event.wake.inj heq).1.symm⟩

/-- Call ids are never given back. -/
theorem StepCases.nextCall_le {w w' : World ι} {e : Event ι} (h : w.StepCases e w') :
    w.nextCall ≤ w'.nextCall := by
  cases h <;> simp

/-- The bookkeeping invariant is kept by every step. -/
theorem Booked.step {w w' : World ι} {e : Event ι} (hbooked : w.Booked) (h : w.StepCases e w') :
    w'.Booked where
  pending_lt c session waiting hc := by
    rcases h.pending_cases hbooked hc with ⟨hold, -, -⟩ | ⟨rfl, input, reads, shared, rfl, -, -⟩
    -- a call that was pending keeps its number, and a new one takes the next
    · exact Nat.lt_of_lt_of_le (hbooked.pending_lt c session waiting hold) h.nextCall_le
    · cases h; simp
  trace_lt o ho c hc := by
    cases h with
    | recorded capability =>
      rcases List.mem_append.mp ho with hold | hnew
      · exact hbooked.trace_lt o hold c hc
      · rw [List.mem_singleton.mp hnew] at hc
        cases hc
    | started session input reads shared progress houtcome =>
      simp only [enter_trace, setShared_trace, setShared_nextCall, List.mem_append,
        List.mem_cons] at ho
      rw [enter_nextCall, setShared_nextCall]
      rcases ho with hold | rfl | hnew
      · exact Nat.lt_succ_of_lt (hbooked.trace_lt o hold c hc)
      · obtain rfl := Option.some.inj hc
        exact Nat.lt_succ_self _
      · rw [callId_of_mem_progressTrace hnew] at hc
        obtain rfl := Option.some.inj hc
        exact Nat.lt_succ_self _
    | woke c' wakeup stamp session waiting shared settled hpending hsettlement =>
      have hlt : c' < w.nextCall := hbooked.pending_lt c' session waiting hpending
      simp only [leave_trace, setShared_trace, List.mem_append, List.mem_cons,
        List.not_mem_nil, or_false] at ho
      rcases ho with hold | rfl | rfl
      · exact hbooked.trace_lt o hold c hc
      · exact Option.some.inj hc ▸ hlt
      · exact Option.some.inj hc ▸ hlt
  traced c session waiting hc := by
    have hgrows : ∀ o ∈ w.trace, o ∈ w'.trace := fun o ho => h.trace_extends.subset ho
    rcases h.pending_cases hbooked hc with
      ⟨hold, -, -⟩ | ⟨rfl, input, reads, shared, -, houtcome, htrace⟩
    · obtain ⟨hstarted, hinvoked⟩ := hbooked.traced c session waiting hold
      exact ⟨hgrows _ hstarted, fun o ho => hgrows o (hinvoked o ho)⟩
    · rw [htrace, houtcome.waiting_input]
      exact ⟨by simp, fun o ho => by simp [ho]⟩
  started_unique c session input session' input' hstarted hstarted' := by
    have hfresh : ∀ session input, .started w.nextCall session input ∉ w.trace :=
      fun _ _ hmem => Nat.lt_irrefl _ (hbooked.trace_lt _ hmem w.nextCall rfl)
    rcases h.started_cases hstarted with hold | ⟨rfl, reads, rfl⟩
    · rcases h.started_cases hstarted' with hold' | ⟨rfl, -⟩
      · exact hbooked.started_unique c _ _ _ _ hold hold'
      · exact absurd hold (hfresh _ _)
    · rcases h.started_cases hstarted' with hold' | ⟨-, reads', heq⟩
      · exact absurd hold' (hfresh _ _)
      · obtain ⟨rfl, rfl, -⟩ := Event.start.inj heq
        exact ⟨rfl, rfl⟩

/-- The bookkeeping invariant holds after every run from a fresh state. -/
theorem Booked.run {w₀ w : World ι} {es : List (Event ι)} (h₀ : w₀.Booked)
    (hrun : Transition.run World.step w₀ es = some w) : w.Booked :=
  Transition.run_invariant (fun _ _ _ hbooked h => hbooked.step (step_cases h)) h₀ hrun

/-- The trace only grows along a run. -/
theorem trace_extends_run {w w' : World ι} {es : List (Event ι)}
    (hrun : Transition.run World.step w es = some w') : w.trace <+: w'.trace :=
  Transition.run_rel (R := fun w w' : World ι => w.trace <+: w'.trace)
    (fun _ => List.prefix_refl _) (fun _ _ _ => List.IsPrefix.trans)
    (fun _ _ _ h => (step_cases h).trace_extends) hrun

omit [Host] [DecidableEq ι] in
/-- A success in the trace stays in every longer trace. -/
theorem Succeeded.mono {w w' : World ι} {session : ι} {c : CallId} {input : ExecuteActionInput}
    {receipt : JsValue} (h : w.Succeeded session c input receipt)
    (hextends : w.trace <+: w'.trace) : w'.Succeeded session c input receipt := by
  obtain ⟨hstarted, replay, operationId, reasonCode, auditEvents, hok⟩ := h
  exact ⟨hextends.subset hstarted, replay, operationId, reasonCode, auditEvents,
    hextends.subset hok⟩

end

end World

/-! ## A sample setting

The request, parameters and receipt of a ticket call, at a fixed instant. -/

namespace Sample

/-- `2026-08-22T09:00:00Z` -/
def now : Instant := 1787389200000

/-- The request of a ticket call. -/
def makeRequest : CapabilityRequest where
  principalId := js "principal-1"
  actionType := .createInternalTicket
  resourceId := js "incident-1"
  proposalHash := js "hash-abc"

/-- The capability minted for a request under this id and nonce. -/
def makeCapability (request : CapabilityRequest) (id nonce : String) : Capability where
  id := js id
  principalId := request.principalId
  actionType := request.actionType
  resourceId := request.resourceId
  proposalHash := request.proposalHash
  expiresAt := js "2026-08-22T09:05:00.000Z"
  nonce := js nonce
  status := .active

example : (@mintCapability node (.policyAllow ⟨.allow, [], currentPolicyVersion⟩) makeRequest
      ⟨js "cap_000001", js "nonce_000001", now⟩ 300000).toOption =
    some (makeCapability makeRequest "cap_000001" "nonce_000001") := by
  decide +kernel

/-- The parameters of a ticket call. -/
def params : JsValue := .object [(js "title", .string (js "Cold-chain check"))]

/-- A call of `executeAction` with fresh preconditions. -/
def makeInput (capability : Capability) (request : CapabilityRequest)
    (operationId key : String) : ExecuteActionInput where
  capabilityRaw := capability.toJsValue
  request := request
  operation := ⟨js operationId, js key⟩
  params := params
  precondition := ⟨request.proposalHash, .ofNat 3, .ofNat 3⟩
  postcondition := .createInternalTicket (js key)

/-- A schema-valid ticket receipt. -/
def makeReceipt (ticketId key : String) : TicketReceipt where
  ticketId := js ticketId
  title := js "Cold-chain check"
  description := none
  priority := js "medium"
  idempotencyKey := js key
  resourceId := js "incident-1"
  createdAt := js "2026-08-22T09:00:00.000Z"

/-- An event id and the clock. -/
def stamp (eventId : String) : Stamp := ⟨js eventId, now⟩

/-- The clock readings of a call. -/
def reads (eventId : String) : CallReads := ⟨now, stamp eventId, now⟩

section
attribute [local instance] node

/-- One call after the other. -/
def sequentialCalls : List (Event Unit) :=
  let first := makeCapability makeRequest "cap_000001" "nonce_000001"
  let second := makeCapability makeRequest "cap_000002" "nonce_000002"
  [.record first, .record second,
    .start () (makeInput first makeRequest "op_1" "key-1") (reads "evt_000001"),
    .wake 0 (.executeResolved (makeReceipt "tix_000001" "key-1").toJsValue) (stamp "evt_000002"),
    .start () (makeInput second makeRequest "op_2" "key-1") (reads "evt_000003")]

/-- The state a run ends in. -/
def after (w : World Unit) (es : List (Event Unit))
    (h : (Transition.run World.step w es).isSome) : World Unit :=
  (Transition.run World.step w es).get h

/-- Where every step of a run is possible, `after` is the world it ends in. -/
theorem run_after (w : World Unit) (es : List (Event Unit))
    (h : (Transition.run World.step w es).isSome) :
    Transition.run World.step w es = some (after w es h) :=
  (Option.some_get h).symm

/-- The state after both calls. -/
def afterSequentialCalls : World Unit := after {} sequentialCalls (by decide +kernel)

/-- The two calls of the sample run, one after the other. -/
theorem run_sequentialCalls :
    Transition.run World.step {} sequentialCalls = some afterSequentialCalls :=
  run_after _ _ _

end

end Sample

end ActionHarbor
