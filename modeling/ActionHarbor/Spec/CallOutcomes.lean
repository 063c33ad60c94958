import ActionHarbor.Spec.AtMostOnce
import ActionHarbor.Spec.AuditRows
import ActionHarbor.Spec.Replay

/-!
# How a call ends

One call of the gateway followed to its end, whatever the adapter does and whatever
other calls do to the shared objects while it waits.

A rejection leaves no trace but its own rows, save one: the capability is checked
once more after it has been consumed, with a later clock reading. An adapter's
misbehaviour ends in a result, save where it meets the reconciliation path: the race
catches what `execute` throws, nothing catches what `lookup` does.

## Key results

- `completeCall_cases`: every way a call can end
- `rejections_atomic_iff`: when the rejections of a call leave everything as it was
- `endsDeclared_iff`: when a call that ends has ended in a declared outcome
-/

namespace ActionHarbor

section
variable [Host]

/-! ## A call followed to its end -/

/-- Run a call to its end. `meanwhile` is what others do to the shared objects while it
    waits; `none` when the wakeup is for another kind of wait. -/
def completeCall (shared : Shared) (input : ExecuteActionInput) (reads : CallReads)
    (meanwhile : Shared → Shared) (wakeup : Wakeup) (stamp : Stamp) : Option (Shared × Settled) :=
  match executeAction shared input reads with
  | (shared, .done settled) => some (shared, settled)
  | (shared, .waiting waiting) => waiting.resume wakeup (meanwhile shared) stamp

/-- Every way a call can end. -/
inductive CallEnd (shared : Shared) (input : ExecuteActionInput) (reads : CallReads)
    (meanwhile : Shared → Shared) (wakeup : Wakeup) : Shared → Settled → Prop
  | atOnce (shared' : Shared) (settled : Settled)
      (hprogress : (executeAction shared input reads).2 = .done settled)
      (hstart : StartOutcome shared input reads shared' (.done settled)) :
      CallEnd shared input reads meanwhile wakeup shared' settled
  | resumed (started : Shared) (waiting : Waiting) (shared' : Shared) (settled : Settled)
      (hstarted : (executeAction shared input reads).1 = started)
      (hstart : StartOutcome shared input reads started (.waiting waiting))
      (hend : Settlement (meanwhile started) waiting wakeup shared' settled) :
      CallEnd shared input reads meanwhile wakeup shared' settled

/-- A call ends one of these ways. -/
theorem completeCall_cases {shared shared' : Shared} {input : ExecuteActionInput}
    {reads : CallReads} {meanwhile : Shared → Shared} {wakeup : Wakeup} {stamp : Stamp}
    {settled : Settled}
    (h : completeCall shared input reads meanwhile wakeup stamp = some (shared', settled)) :
    CallEnd shared input reads meanwhile wakeup shared' settled := by
  have hstart := executeAction_cases shared input reads
  rw [completeCall] at h
  cases hcall : executeAction shared input reads with
  | mk started progress =>
    rw [hcall] at h hstart
    cases progress with
    | done settled' =>
      cases h
      exact .atOnce _ _ (by rw [hcall]) hstart
    | waiting waiting =>
      exact .resumed started waiting shared' settled (by rw [hcall]) hstart (resume_cases h)

/-- How the call starts decides how it can be resumed. -/
theorem completeCall_of_waiting {shared started : Shared} {input : ExecuteActionInput}
    {reads : CallReads} {waiting : Waiting}
    (h : executeAction shared input reads = (started, .waiting waiting))
    (meanwhile : Shared → Shared) (wakeup : Wakeup) (stamp : Stamp) :
    completeCall shared input reads meanwhile wakeup stamp =
      waiting.resume wakeup (meanwhile started) stamp := by
  rw [completeCall, h]

/-! ## Rejections -/

/-- The stages that refuse a call: `capability`, `precondition`, `idempotency`. -/
def ExecuteActionResult.isRejection : ExecuteActionResult → Bool
  | .capability _ _ | .precondition _ _ | .idempotency _ => true
  | _ => false

/-- `adapter.execute` or `adapter.lookup` has been invoked. -/
def CallProgress.invokesAdapter : CallProgress → Bool
  | .waiting (.executing _) | .waiting (.lookingUp _) => true
  | _ => false

/-- The call leaves no trace but the rows it returns. -/
structure Atomic (shared : Shared) (input : ExecuteActionInput) (reads : CallReads)
    (shared' : Shared) (result : ExecuteActionResult) : Prop where
  adapter : (executeAction shared input reads).2.invokesAdapter = false
  registry : shared'.registry = shared.registry
  operationStore : shared'.operationStore = shared.operationStore
  ledger : shared'.ledger.entries = shared.ledger.entries ++ result.auditEvents

/-- The call consumes a capability that has expired by the gateway's own check. -/
def ExpiresUnderway (shared : Shared) (input : ExecuteActionInput) (reads : CallReads) : Prop :=
  ∃ capability payloadHash registry,
    PassesGuards input reads.now capability ∧
    hashCanonical input.params = .ok payloadHash ∧
    shared.operationStore.byIdempotencyKey input.operation.idempotencyKey = none ∧
    shared.registry.consume capability.id capability.nonce = .ok registry ∧
    isExpired capability.expiresAt reads.gatewayNow = true

/-- The gateway's own check refuses only what has expired since the entry check. -/
theorem invokeAdapter_eq {call : RacingCall} {now : Instant}
    (h : PassesGuards call.input now call.capability) (gatewayNow : Instant) :
    invokeAdapter call gatewayNow =
      if isExpired call.capability.expiresAt gatewayNow then .refused call .expired
      else .executing call := by
  rw [invokeAdapter, validateCapability_later (parseAndValidateCapability_eq_ok.mp h.1).2]
  cases isExpired call.capability.expiresAt gatewayNow <;> rfl

/-- A call that is refused after its start was refused for what expired underway. -/
theorem StartOutcome.expiresUnderway {shared shared' : Shared} {input : ExecuteActionInput}
    {reads : CallReads} {call : RacingCall} {reasonCode : CapabilityRejectionReason}
    (h : StartOutcome shared input reads shared' (.waiting (.refused call reasonCode))) :
    ExpiresUnderway shared input reads := by
  generalize hprogress : CallProgress.waiting (.refused call reasonCode) = progress at h
  cases h with
  | entered capability payloadHash registry entry hguards hhash hnew hconsume =>
    refine ⟨capability, payloadHash, registry, hguards, hhash, hnew, hconsume, ?_⟩
    have hrefused := CallProgress.waiting.inj hprogress
    rw [invokeAdapter_eq hguards] at hrefused
    by_contra hlive
    rw [if_neg hlive] at hrefused
    cases hrefused
  | _ => cases hprogress

/-- A rejection by the synchronous part is atomic. -/
theorem StartOutcome.atomic {shared shared' : Shared} {input : ExecuteActionInput}
    {reads : CallReads} {result : ExecuteActionResult}
    (h : StartOutcome shared input reads shared' (.done (.returned result)))
    (hprogress : (executeAction shared input reads).2 = .done (.returned result))
    (hrejection : result.isRejection = true) : Atomic shared input reads shared' result := by
  have hadapter : (executeAction shared input reads).2.invokesAdapter = false := by
    rw [hprogress]
    rfl
  cases h with
  | capabilityRefused | registryRefused => exact ⟨hadapter, rfl, rfl, (List.append_nil _).symm⟩
  | preconditionFailed | conflict => exact ⟨hadapter, rfl, rfl, rfl⟩
  | replayed | replayedFailure => cases hrejection

/-- A call that consumes an expiring capability is refused and has recorded a failure. -/
theorem ExpiresUnderway.completeCall {shared : Shared} {input : ExecuteActionInput}
    {reads : CallReads} (h : ExpiresUnderway shared input reads) (stamp : Stamp) :
    ∃ shared' auditEvents,
      completeCall shared input reads id .refusalDelivered stamp =
        some (shared', .returned (.capability .expired auditEvents)) ∧
      shared.operationStore.byIdempotencyKey input.operation.idempotencyKey = none ∧
      shared'.operationStore.byIdempotencyKey input.operation.idempotencyKey ≠ none := by
  obtain ⟨capability, payloadHash, registry, hguards, hhash, hnew, hconsume, hexpired⟩ := h
  have hstart := executeAction_cases shared input reads
  cases hcall : executeAction shared input reads with
  | mk started progress =>
    rw [hcall] at hstart
    obtain ⟨entry, rfl, rfl⟩ := hstart.entered_of_consume hguards hhash hnew hconsume
    rw [invokeAdapter_eq hguards, if_pos hexpired] at hcall
    rw [completeCall_of_waiting hcall]
    refine ⟨_, _, rfl, hnew, ?_⟩
    simp [RacingCall.outcomeRecord, OperationStore.record]

/-- The rejections of a call leave everything as it was, but for the rows they return,
    exactly when no capability expires between the call's two clock readings. -/
theorem rejections_atomic_iff (shared : Shared) (input : ExecuteActionInput)
    (reads : CallReads) :
    (∀ meanwhile wakeup stamp shared' result,
      completeCall shared input reads meanwhile wakeup stamp = some (shared', .returned result) →
      result.isRejection = true → Atomic shared input reads shared' result) ↔
    ¬ ExpiresUnderway shared input reads := by
  constructor
  · intro hatomic hexpires
    obtain ⟨shared', auditEvents, hcall, hnew, hrecorded⟩ :=
      hexpires.completeCall ⟨js "", reads.gatewayNow⟩
    have hstore := (hatomic _ _ _ _ _ hcall rfl).operationStore
    exact hrecorded (hstore ▸ hnew)
  · intro hlive meanwhile wakeup stamp shared' result hcall hrejection
    rcases completeCall_cases hcall with ⟨_, _, hprogress, hstart⟩ | ⟨_, waiting, _, _, -, hstart, hend⟩
    · exact hstart.atomic hprogress hrejection
    · -- a call that has waited is rejected only by the gateway's own check
      cases hend with
      | refusal call reasonCode => exact absurd hstart.expiresUnderway hlive
      | verified | unverified | timedOut | rejected | inconclusive => cases hrejection

/-! ## Declared outcomes -/

/-- The call passes its guards under a key whose record is neither replayed as a success
    nor as a failure: it will look the operation up. -/
def LooksUp (shared : Shared) (input : ExecuteActionInput) (reads : CallReads)
    (prior : OperationRecord) : Prop :=
  ∃ capability,
    PassesGuards input reads.now capability ∧
    hashCanonical input.params = .ok prior.payloadHash ∧
    shared.operationStore.byIdempotencyKey input.operation.idempotencyKey = some prior ∧
    ¬ (prior.state = .succeeded ∧ prior.receipt.isUndefined = false) ∧
    prior.state ≠ .failed

omit [Host] in
/-- The answer has this text as its status. -/
def LookupAnswer.hasStatus (answer : LookupAnswer) (status : JsString) : Bool :=
  match answer with
  | .resolved value => ((value.getProp (js "status")).getD .undefined).isString status
  | .rejected => false

omit [Host] in
/-- The answer is one the code provides for: it can be asked for its status, and the
    status of an unknown outcome is one of the two there are. -/
def LookupAnswer.ProvidedFor (answer : LookupAnswer) (prior : OperationRecord) : Prop :=
  (∃ value status, answer = .resolved value ∧ value.getProp (js "status") = some status) ∧
    (prior.state = .unknownOutcome →
      answer.hasStatus (js "unknown") = true ∨ answer.hasStatus (js "found") = true)

omit [Host] in
/-- The outcome is reported as still unknown, and the store left as it was. -/
def ReportedUnknown (prior : OperationRecord) (shared shared' : Shared) (settled : Settled) :
    Prop :=
  (∃ auditEvents,
    settled = .returned (.reconciliationRequired prior.operationId auditEvents)) ∧
    shared'.operationStore = shared.operationStore

/-- The call has ended in a declared outcome. -/
structure EndsDeclared (shared : Shared) (input : ExecuteActionInput) (reads : CallReads)
    (meanwhile : Shared → Shared) (wakeup : Wakeup) (shared' : Shared) (settled : Settled) :
    Prop where
  /-- its promise resolves -/
  returned : ∃ result, settled = .returned result
  /-- an unknown outcome the lookup does not find is reported as such -/
  inconclusive : ∀ prior answer, LooksUp shared input reads prior →
    prior.state = .unknownOutcome → wakeup = .lookupSettled answer →
    answer.hasStatus (js "found") = false →
    ReportedUnknown prior (meanwhile shared) shared' settled

/-- The adapter behaves as the code provides for. -/
structure ProvidedFor (shared : Shared) (input : ExecuteActionInput) (reads : CallReads)
    (wakeup : Wakeup) : Prop where
  /-- what `execute` rejects with has a text -/
  printable : Admits shared input reads → ∀ error, wakeup = .executeRejected error →
    error.errorMessage ≠ none
  /-- and what `lookup` answers is provided for -/
  answered : ∀ prior answer, LooksUp shared input reads prior →
    wakeup = .lookupSettled answer → answer.ProvidedFor prior

/-- A call that waits for a lookup was to look its operation up. -/
theorem StartOutcome.looksUp {shared shared' : Shared} {input : ExecuteActionInput}
    {reads : CallReads} {call : LookupCall}
    (h : StartOutcome shared input reads shared' (.waiting (.lookingUp call))) :
    shared' = shared ∧ LooksUp shared input reads call.prior := by
  generalize hprogress : CallProgress.waiting (.lookingUp call) = progress at h
  cases h with
  | lookingUp capability prior hguards hhash hrecord hnotReplayed hnotFailed =>
    obtain rfl := Waiting.lookingUp.inj (CallProgress.waiting.inj hprogress)
    exact ⟨rfl, capability, hguards, hhash, hrecord, hnotReplayed, hnotFailed⟩
  | entered =>
    rw [invokeAdapter] at hprogress
    split at hprogress <;> cases hprogress
  | _ => cases hprogress

/-- A call that is to look its operation up waits for that. -/
theorem StartOutcome.of_looksUp {shared shared' : Shared} {input : ExecuteActionInput}
    {reads : CallReads} {progress : CallProgress} {prior : OperationRecord}
    (h : StartOutcome shared input reads shared' progress)
    (hlooksUp : LooksUp shared input reads prior) :
    shared' = shared ∧ progress = .waiting (.lookingUp ⟨input, prior⟩) := by
  obtain ⟨capability, hguards, hhash, hrecord, hnotReplayed, hnotFailed⟩ := hlooksUp
  exact h.lookingUp_of_recorded hguards hhash hrecord hnotReplayed hnotFailed

/-- A call with plain JSON params whose promise settles by its first `await` has
    resolved. -/
theorem StartOutcome.returned_of_isPlainJson {shared shared' : Shared}
    {input : ExecuteActionInput} {reads : CallReads} {settled : Settled}
    (h : StartOutcome shared input reads shared' (.done settled))
    (hparams : isPlainJson input.params = true) : ∃ result, settled = .returned result := by
  cases h with
  | unhashableParams _ error _ hhash =>
    obtain ⟨canonical, hcanonical⟩ := hashable_of_isPlainJson input.params hparams
    rw [hashCanonical, hcanonical] at hhash
    cases hhash
  | capabilityRefused | preconditionFailed | conflict | replayed | replayedFailure
  | registryRefused => exact ⟨_, rfl⟩

omit [Host] in
/-- An answer that is read for its receipt has a status other than unknown. -/
theorem Receives.not_unknown {call : LookupCall} {answer : LookupAnswer} {receipt : JsValue}
    (h : Receives (.lookingUp call) (.lookupSettled answer) receipt) :
    (∃ value status, answer = .resolved value ∧ value.getProp (js "status") = some status) ∧
      answer.hasStatus (js "unknown") = false := by
  cases h with
  | found _ value status hstatus hfound =>
    refine ⟨⟨value, status, rfl, hstatus⟩, ?_⟩
    rw [LookupAnswer.hasStatus, hstatus]
    exact hfound

omit [Host] in
/-- An answer read for its receipt: every status but `"unknown"` is taken for found. -/
private theorem Receives.declared_iff {shared shared' : Shared} {call : LookupCall}
    {answer : LookupAnswer} {receipt : JsValue} {result : ExecuteActionResult}
    (h : Receives (.lookingUp call) (.lookupSettled answer) receipt)
    (hdecided : ∀ operationId auditEvents,
      result ≠ .reconciliationRequired operationId auditEvents) :
    ((∃ result', Settled.returned result = .returned result') ∧
      (call.prior.state = .unknownOutcome → answer.hasStatus (js "found") = false →
        ReportedUnknown call.prior shared shared' (.returned result))) ↔
      answer.ProvidedFor call.prior := by
  obtain ⟨hresolved, hunknown⟩ := h.not_unknown
  -- the answer is not `unknown`, so it is taken for found
  constructor
  · rintro ⟨-, hinconclusive⟩
    refine ⟨hresolved, fun hstate => .inr ?_⟩
    by_contra hnotFound
    obtain ⟨⟨auditEvents, hrequired⟩, -⟩ := hinconclusive hstate (Bool.eq_false_iff.mpr hnotFound)
    exact hdecided _ _ (Settled.returned.inj hrequired)
  · rintro ⟨-, hstatus⟩
    refine ⟨⟨result, rfl⟩, fun hstate hnotFound => ?_⟩
    rw [hunknown, hnotFound] at hstatus
    rcases hstatus hstate with h | h <;> cases h

/-- A call that has looked its operation up ends in a declared outcome exactly when the
    answer is one the code provides for. -/
private theorem Settlement.declared_iff {shared shared' : Shared} {call : LookupCall}
    {answer : LookupAnswer} {settled : Settled}
    (h : Settlement shared (.lookingUp call) (.lookupSettled answer) shared' settled) :
    ((∃ result, settled = .returned result) ∧
      (call.prior.state = .unknownOutcome → answer.hasStatus (js "found") = false →
        ReportedUnknown call.prior shared shared' settled)) ↔ answer.ProvidedFor call.prior := by
  generalize hwaiting : Waiting.lookingUp call = waiting at h
  generalize hwakeup : Wakeup.lookupSettled answer = wakeup at h
  -- only the last two throw
  cases h with
  | verified _ _ receipt entry hreceives =>
    subst hwaiting hwakeup
    exact hreceives.declared_iff fun _ _ h => by cases h
  | unverified _ _ receipt entry hreceives =>
    subst hwaiting hwakeup
    exact hreceives.declared_iff fun _ _ h => by cases h
  | inconclusive call' value status entry hstatus hunknown =>
    obtain rfl := Waiting.lookingUp.inj hwaiting
    obtain rfl := Wakeup.lookupSettled.inj hwakeup
    refine ⟨fun _ => ⟨⟨value, status, rfl, hstatus⟩, fun _ => .inl ?_⟩,
      fun _ => ⟨⟨_, rfl⟩, fun _ _ => ⟨⟨_, rfl⟩, rfl⟩⟩⟩
    rw [LookupAnswer.hasStatus, hstatus]
    exact hunknown
  | lookupMalformed call' value hstatus =>
    obtain rfl := Wakeup.lookupSettled.inj hwakeup
    constructor
    · rintro ⟨⟨_, hreturned⟩, -⟩
      cases hreturned
    · rintro ⟨⟨value', status, hvalue, hstatus'⟩, -⟩
      obtain rfl := LookupAnswer.resolved.inj hvalue
      cases hstatus.symm.trans hstatus'
  | lookupRejected call' =>
    obtain rfl := Wakeup.lookupSettled.inj hwakeup
    constructor
    · rintro ⟨⟨_, hreturned⟩, -⟩
      cases hreturned
    · rintro ⟨⟨_, _, hvalue, -⟩, -⟩
      cases hvalue
  | timedOut | rejected | crashed | refusal => cases hwaiting

/-- What a call that races ends with, unless its adapter rejects with what has no text. -/
private theorem Settlement.returned_iff {shared shared' : Shared} {waiting : Waiting}
    {wakeup : Wakeup} {settled : Settled}
    (h : Settlement shared waiting wakeup shared' settled) (hrace : waiting.reconciles = false) :
    (∃ result, settled = .returned result) ↔
      ∀ error, wakeup = .executeRejected error → error.errorMessage ≠ none := by
  cases h with
  -- only a rejection without a message throws
  | verified _ _ receipt entry hreceives | unverified _ _ receipt entry hreceives =>
    refine ⟨fun _ error hwakeup => ?_, fun _ => ⟨_, rfl⟩⟩
    cases hreceives <;> cases hwakeup
  | timedOut call entry => exact ⟨fun _ _ h => (by cases h), fun _ => ⟨_, rfl⟩⟩
  | rejected call error errorMessage hmessage =>
    refine ⟨fun _ error' h => ?_, fun _ => ⟨_, rfl⟩⟩
    obtain rfl := Wakeup.executeRejected.inj h
    rw [hmessage]
    exact Option.some_ne_none _
  | crashed call error hmessage =>
    constructor
    · rintro ⟨_, hreturned⟩
      cases hreturned
    · intro hprintable
      exact absurd hmessage (hprintable error rfl)
  | refusal call reasonCode => exact ⟨fun _ _ h => (by cases h), fun _ => ⟨_, rfl⟩⟩
  | inconclusive | lookupMalformed | lookupRejected => cases hrace

section
variable {shared started shared' : Shared} {input : ExecuteActionInput} {reads : CallReads}
  {meanwhile : Shared → Shared} {wakeup : Wakeup} {settled : Settled}

/-- A call that is done at once neither executes nor looks anything up. -/
private theorem StartOutcome.endsDeclared_of_done
    (hstart : StartOutcome shared input reads shared' (.done settled))
    (hparams : isPlainJson input.params = true) :
    EndsDeclared shared input reads meanwhile wakeup shared' settled ↔
      ProvidedFor shared input reads wakeup := by
  have hlooksUp : ∀ prior, ¬ LooksUp shared input reads prior := fun prior h => by
    cases (hstart.of_looksUp h).2
  refine iff_of_true ⟨hstart.returned_of_isPlainJson hparams,
    fun prior _ h => absurd h (hlooksUp prior)⟩
    ⟨fun ⟨capability, hadmits⟩ => ?_, fun prior _ h => absurd h (hlooksUp prior)⟩
  obtain ⟨call, hcall, -⟩ := hstart.executing_of_admittedWith hadmits
  cases hcall

/-- A call that has raced its adapter looks nothing up. -/
private theorem StartOutcome.endsDeclared_of_race {waiting : Waiting}
    (hstart : StartOutcome shared input reads started (.waiting waiting))
    (hend : Settlement (meanwhile started) waiting wakeup shared' settled)
    (hrace : waiting.reconciles = false) :
    EndsDeclared shared input reads meanwhile wakeup shared' settled ↔
      ProvidedFor shared input reads wakeup := by
  have hlooksUp : ∀ prior, ¬ LooksUp shared input reads prior := fun prior h => by
    obtain ⟨-, hwaiting⟩ := hstart.of_looksUp h
    rw [CallProgress.waiting.inj hwaiting] at hrace
    cases hrace
  have hreturned := hend.returned_iff hrace
  constructor
  · intro hdeclared
    exact ⟨fun _ => hreturned.mp hdeclared.returned, fun prior _ h => absurd h (hlooksUp prior)⟩
  · intro hprovided
    refine ⟨hreturned.mpr fun error hwakeup => ?_, fun prior _ h => absurd h (hlooksUp prior)⟩
    -- only a call whose `execute` has been invoked can have it rejected
    subst hwakeup
    cases hend with
    | rejected call _ _ _ | crashed call _ _ =>
      exact hprovided.printable ⟨_, hstart.admittedWith⟩ error rfl
    | verified _ _ _ _ hreceives | unverified _ _ _ _ hreceives => cases hreceives

/-- A call that has looked its operation up executes nothing. -/
private theorem StartOutcome.endsDeclared_of_lookup {call : LookupCall}
    (hstart : StartOutcome shared input reads started (.waiting (.lookingUp call)))
    (hend : Settlement (meanwhile started) (.lookingUp call) wakeup shared' settled) :
    EndsDeclared shared input reads meanwhile wakeup shared' settled ↔
      ProvidedFor shared input reads wakeup := by
  obtain ⟨rfl, hcall⟩ := hstart.looksUp
  obtain ⟨answer, rfl, -⟩ := hend.reconciled
  have hadmits : ¬ Admits started input reads := fun ⟨capability, hadmits⟩ => by
    obtain ⟨_, hexecuting, -⟩ := hstart.executing_of_admittedWith hadmits
    cases hexecuting
  -- the record a lookup is about is the one the call has found
  have hprior : ∀ {prior}, LooksUp started input reads prior → prior = call.prior := fun h => by
    obtain ⟨_, hlookingUp⟩ := hstart.of_looksUp h
    rw [Waiting.lookingUp.inj (CallProgress.waiting.inj hlookingUp)]
  have hdeclared := hend.declared_iff
  constructor
  · intro h
    refine ⟨fun hadmitted => absurd hadmitted hadmits, fun prior answer' hlooksUp hanswer => ?_⟩
    obtain rfl := Wakeup.lookupSettled.inj hanswer
    obtain rfl := hprior hlooksUp
    exact hdeclared.mp ⟨h.returned, fun hstate => h.inconclusive _ _ hcall hstate rfl⟩
  · intro h
    obtain ⟨hreturned, hinconclusive⟩ := hdeclared.mpr (h.answered _ _ hcall rfl)
    refine ⟨hreturned, fun prior answer' hlooksUp hstate hanswer => ?_⟩
    obtain rfl := Wakeup.lookupSettled.inj hanswer
    obtain rfl := hprior hlooksUp
    exact hinconclusive hstate

end

/-- A call with plain JSON params that ends has ended in a declared outcome exactly when
    the adapter has behaved as the code provides for. -/
theorem endsDeclared_iff {shared shared' : Shared} {input : ExecuteActionInput}
    {reads : CallReads} {meanwhile : Shared → Shared} {wakeup : Wakeup} {stamp : Stamp}
    {settled : Settled} (hparams : isPlainJson input.params = true)
    (hends : completeCall shared input reads meanwhile wakeup stamp = some (shared', settled)) :
    EndsDeclared shared input reads meanwhile wakeup shared' settled ↔
      ProvidedFor shared input reads wakeup := by
  rcases completeCall_cases hends with
    ⟨_, _, -, hstart⟩ | ⟨started, waiting, _, _, -, hstart, hend⟩
  · exact hstart.endsDeclared_of_done hparams
  · cases waiting with
    | executing call | refused call reasonCode => exact hstart.endsDeclared_of_race hend rfl
    | lookingUp call => exact hstart.endsDeclared_of_lookup hend

end

namespace Sample

section
attribute [local instance] node

/-- One capability minted, nothing executed. -/
def minted : Shared where
  registry := ({} : CapabilityRegistry).record
    (makeCapability makeRequest "cap_000001" "nonce_000001")

/-- The call it is for. -/
def ticketInput : ExecuteActionInput :=
  makeInput (makeCapability makeRequest "cap_000001" "nonce_000001") makeRequest "op_1" "key-1"

/-- The capability's five minutes end between the two clock readings. -/
def lateReads : CallReads := { reads "evt_000001" with gatewayNow := now + 300000 }

/-- The call was rejected. -/
def rejects : Settled → Bool
  | .returned result => result.isRejection
  | .threw _ => false

/-- A rejection that has spent the capability. -/
theorem lateCall_notAtomic : lateReads.now ≤ lateReads.gatewayNow ∧ ∃ shared' result,
    completeCall minted ticketInput lateReads id .refusalDelivered (stamp "evt_000002") =
      some (shared', .returned result) ∧ result.isRejection = true ∧
    ¬ Atomic minted ticketInput lateReads shared' result := by
  have hcall : ∃ ended ∈ completeCall minted ticketInput lateReads id .refusalDelivered
      (stamp "evt_000002"), rejects ended.2 = true ∧
        (ended.1.registry.byId (js "cap_000001")).map (·.status) = some .consumed := by
    decide +kernel
  obtain ⟨⟨shared', settled⟩, hended, hrejects, hconsumed⟩ := hcall
  refine ⟨by decide, ?_⟩
  cases settled with
  | threw => cases hrejects
  | returned result =>
    refine ⟨shared', result, hended, hrejects, fun hatomic => ?_⟩
    rw [hatomic.registry] at hconsumed
    exact absurd hconsumed (by decide)

/-- The call has timed out: the outcome of its operation is unknown. -/
def timedOut : Option (Shared × Settled) :=
  completeCall minted ticketInput (reads "evt_000001") id .timerFired (stamp "evt_000002")

/-- The call is made again, and this is what the lookup answers. -/
def askAgain (shared : Shared) (answer : LookupAnswer) : Option (Shared × Settled) :=
  completeCall shared ticketInput (reads "evt_000003") id (.lookupSettled answer)
    (stamp "evt_000004")

/-- The promise rejects with what the lookup rejected with. -/
def rethrows : Settled → Bool
  | .threw .lookupRejected => true
  | _ => false

/-- A lookup that fails makes the call fail. -/
theorem failedLookup_escapes : ∃ unknown shared',
    timedOut.map Prod.fst = some unknown ∧
    (unknown.operationStore.lookup (js "op_1")).map (·.state) = some .unknownOutcome ∧
    askAgain unknown .rejected = some (shared', .threw .lookupRejected) := by
  have hcall : ∃ unknown ∈ timedOut.map Prod.fst,
      (unknown.operationStore.lookup (js "op_1")).map (·.state) = some .unknownOutcome ∧
      ∃ ended ∈ askAgain unknown .rejected, rethrows ended.2 = true := by
    decide +kernel
  obtain ⟨unknown, hunknown, hstate, ⟨shared', settled⟩, hended, hrethrows⟩ := hcall
  cases settled with
  | returned result => cases hrethrows
  | threw error =>
    cases error with
    | lookupRejected => exact ⟨unknown, shared', hunknown, hstate, hended⟩
    | unhashable | notAnObject | unprintableRejection => cases hrethrows

/-- A lookup that answers `{ status: "unknown" }` is reported as inconclusive. -/
theorem unknownAnswer_declared : ∃ unknown shared' settled,
    timedOut.map Prod.fst = some unknown ∧
    askAgain unknown (.resolved (.object [(js "status", .string (js "unknown"))])) =
      some (shared', settled) ∧
    EndsDeclared unknown ticketInput (reads "evt_000003") id
      (.lookupSettled (.resolved (.object [(js "status", .string (js "unknown"))]))) shared'
      settled := by
  have hcall : ∃ unknown ∈ timedOut.map Prod.fst,
      (askAgain unknown (.resolved (.object [(js "status", .string (js "unknown"))]))).isSome := by
    decide +kernel
  obtain ⟨unknown, hunknown, hended⟩ := hcall
  obtain ⟨⟨shared', settled⟩, hended⟩ := Option.isSome_iff_exists.mp hended
  refine ⟨unknown, shared', settled, hunknown, hended,
    (endsDeclared_iff (by decide) hended).mpr ⟨fun _ _ h => (by cases h), ?_⟩⟩
  intro prior answer _ hanswer
  obtain rfl := Wakeup.lookupSettled.inj hanswer
  exact ⟨⟨_, _, rfl, rfl⟩, fun _ => .inl (by decide)⟩

end

end Sample

end ActionHarbor
