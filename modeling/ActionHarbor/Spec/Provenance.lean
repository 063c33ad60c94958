import ActionHarbor.Spec.WorldSteps

/-!
# No success without verification

A success reaches a caller by fresh execution, by reconciliation or from the
store. In each case its receipt was handed over by the adapter inside some call
with the same idempotency key, and passed the postcondition check of that call.

## Key results

- `World.Provenance.step`: the invariant of the store and of the results so far
- `World.success_is_verified`: every `ok` result's receipt was returned by the adapter and
  verified, and every record is well formed
-/

namespace ActionHarbor

section
variable [Host]

/-! ## Calls that wait -/

/-- The call passes its guards under a new key and the registry consumes its
    capability: it will race its adapter call against the timer. -/
def EntersRace (shared : Shared) (input : ExecuteActionInput) (reads : CallReads) : Prop :=
  ∃ capability payloadHash registry,
    PassesGuards input reads.now capability ∧
    hashCanonical input.params = .ok payloadHash ∧
    shared.operationStore.byIdempotencyKey input.operation.idempotencyKey = none ∧
    shared.registry.consume capability.id capability.nonce = .ok registry

/-- The call passes its guards under a key whose outcome is unknown, with the payload
    of its record: it will look the operation up. -/
def EntersLookup (shared : Shared) (input : ExecuteActionInput) (reads : CallReads)
    (prior : OperationRecord) : Prop :=
  ∃ capability,
    PassesGuards input reads.now capability ∧
    hashCanonical input.params = .ok prior.payloadHash ∧
    shared.operationStore.byIdempotencyKey input.operation.idempotencyKey = some prior ∧
    prior.state = .unknownOutcome

/-- A call that waits races under a new key, or looks up an unknown outcome. -/
theorem StartOutcome.waiting_cases {shared shared' : Shared} {input : ExecuteActionInput}
    {reads : CallReads} {waiting : Waiting}
    (h : StartOutcome shared input reads shared' (.waiting waiting))
    (hwellFormed : ∀ key record, shared.operationStore.byIdempotencyKey key = some record →
      record.WellFormed) :
    (waiting.reconciles = false ∧ EntersRace shared input reads) ∨
    ∃ prior, waiting = .lookingUp ⟨input, prior⟩ ∧ EntersLookup shared input reads prior := by
  cases h with
  | entered capability payloadHash registry entry hguards hhash hnew hconsume =>
    refine .inl ⟨?_, capability, payloadHash, registry, hguards, hhash, hnew, hconsume⟩
    simp only [invokeAdapter]
    split <;> rfl
  | lookingUp capability prior hguards hhash hrecord hnotReplayed hnotFailed =>
    refine .inr ⟨prior, rfl, capability, hguards, hhash, hrecord, ?_⟩
    cases hstate : prior.state with
    | unknownOutcome => rfl
    | failed => exact absurd hstate hnotFailed
    | succeeded =>
      exact absurd ⟨hstate, ((hwellFormed _ prior hrecord).succeeded hstate).1⟩ hnotReplayed

end

variable {ι : Type} [DecidableEq ι]

namespace World

/-! ## Receipts the adapter returned -/

/-- The adapter returned this receipt inside this call: from `execute`, or from
    `lookup` with a status other than `"unknown"`. -/
inductive ReturnedBy (w : World ι) (c : CallId) (session : ι) : JsValue → Prop
  | execute (operation : AdapterOperation) (capability : Capability) (params receipt : JsValue)
      (hinvoked : .executeInvoked c session operation capability params ∈ w.trace)
      (hwoke : .woke c (.executeResolved receipt) ∈ w.trace) :
      ReturnedBy w c session receipt
  | lookup (operationId : JsString) (value status : JsValue)
      (hinvoked : .lookupInvoked c session operationId ∈ w.trace)
      (hwoke : .woke c (.lookupSettled (.resolved value)) ∈ w.trace)
      (hstatus : value.getProp (js "status") = some status)
      (hfound : status.isString (js "unknown") = false) :
      ReturnedBy w c session ((value.getProp (js "receipt")).getD .undefined)

omit [DecidableEq ι] in
theorem ReturnedBy.mono {w w' : World ι} {c : CallId} {session : ι} {receipt : JsValue}
    (h : w.ReturnedBy c session receipt) (hextends : w.trace <+: w'.trace) :
    w'.ReturnedBy c session receipt := by
  cases h with
  | execute operation capability params _ hinvoked hwoke =>
    exact .execute operation capability params receipt (hextends.subset hinvoked)
      (hextends.subset hwoke)
  | lookup operationId value status hinvoked hwoke hstatus hfound =>
    exact .lookup operationId value status (hextends.subset hinvoked) (hextends.subset hwoke)
      hstatus hfound

section
variable [Host]

/-- Some call with this key was handed the receipt by the adapter and verified it. -/
def Vouched (w : World ι) (session : ι) (key : JsString) (receipt : JsValue) : Prop :=
  ∃ c input, .started c session input ∈ w.trace ∧ input.operation.idempotencyKey = key ∧
    w.ReturnedBy c session receipt ∧
    verifyPostcondition input.request.actionType receipt input.postcondition = true

omit [DecidableEq ι] in
theorem Vouched.mono {w w' : World ι} {session : ι} {key : JsString} {receipt : JsValue}
    (h : w.Vouched session key receipt) (hextends : w.trace <+: w'.trace) :
    w'.Vouched session key receipt := by
  obtain ⟨c, input, hstarted, hkey, hreturned, hverified⟩ := h
  exact ⟨c, input, hextends.subset hstarted, hkey, hreturned.mono hextends, hverified⟩

/-! ## The invariant -/

/-- Records are well formed, successes, recorded or returned, are vouched for, and only
    unknown outcomes are looked up. -/
structure Provenance (w : World ι) : Prop where
  wellFormed : ∀ session key record, w.recordOf session key = some record → record.WellFormed
  operationWellFormed : ∀ session operationId record,
    (w.stores session).lookup operationId = some record → record.WellFormed
  succeeded : ∀ session key record, w.recordOf session key = some record →
    record.state = .succeeded → w.Vouched session key record.receipt
  returned : ∀ c receipt replay operationId reasonCode auditEvents,
    .settled c (.returned (.ok receipt replay operationId reasonCode auditEvents)) ∈ w.trace →
    ∃ session input, .started c session input ∈ w.trace ∧
      w.Vouched session input.operation.idempotencyKey receipt
  reconciling : ∀ c session call, w.pending c = some (session, .lookingUp call) →
    call.prior.state = .unknownOutcome

omit [DecidableEq ι] in
theorem Fresh.provenance {w : World ι} (h : w.Fresh) : w.Provenance where
  wellFormed session key record hrecord := by
    rw [recordOf, h.stores] at hrecord
    cases hrecord
  operationWellFormed session operationId record hrecord := by
    rw [h.stores] at hrecord
    cases hrecord
  succeeded session key record hrecord := by
    rw [recordOf, h.stores] at hrecord
    cases hrecord
  returned c receipt replay operationId reasonCode auditEvents hsettled := by
    rw [h.trace] at hsettled
    cases hsettled
  reconciling c session call hc := by
    rw [h.pending] at hc
    cases hc

/-- A receipt that verifies when a call wakes is vouched for under the call's key. -/
private theorem vouched_of_wake {w : World ι} {c : CallId} {wakeup : Wakeup} {session : ι}
    {waiting : Waiting} {shared : Shared} {settled : Settled} {receipt : JsValue}
    (hbooked : w.Booked) (hpending : w.pending c = some (session, waiting))
    (hreceives : Receives waiting wakeup receipt)
    (hverified : verifyPostcondition waiting.input.request.actionType receipt
      waiting.input.postcondition = true) :
    ((w.setShared session shared).leave c wakeup settled).Vouched session waiting.idempotencyKey
      receipt := by
  obtain ⟨hstarted, hinvoked⟩ := hbooked.traced c session waiting hpending
  refine ⟨c, waiting.input, by simp [hstarted], rfl, ?_, hverified⟩
  cases hreceives with
  | executed call receipt =>
    exact .execute _ _ _ receipt (List.mem_append_left _ (hinvoked _ (List.mem_singleton_self _)))
      (by simp)
  | found call value status hstatus hfound =>
    exact .lookup _ value status (List.mem_append_left _ (hinvoked _ (List.mem_singleton_self _)))
      (by simp) hstatus hfound

/-- A record found in a store after a step was there before, or is the one the
    waking call wrote. -/
private theorem StepCases.lookup_cases {w w' : World ι} {e : Event ι} (h : w.StepCases e w')
    {session : ι} {operationId : JsString} {record : OperationRecord}
    (hrecord : (w'.stores session).lookup operationId = some record) :
    (w.stores session).lookup operationId = some record ∨
    ∃ waiting wakeup, WrittenBy waiting wakeup record := by
  cases h with
  | recorded => exact .inl hrecord
  | started session' input reads shared progress houtcome =>
    left
    by_cases hs : session = session'
    · subst hs; simpa [houtcome.operationStore_eq] using hrecord
    · simpa [hs] using hrecord
  | woke c wakeup stamp session' waiting shared settled hpending hsettlement =>
    by_cases hs : session = session'
    · subst hs
      rcases hsettlement.operationStore_cases with ⟨record', hstore, hwritten⟩ | ⟨hstore, -⟩
      -- the second index is keyed by the record's own operation id
      · simp only [leave_stores, setShared_stores, Function.update_self, hstore,
          OperationStore.lookup, OperationStore.record] at hrecord
        by_cases hid : operationId = record'.operationId
        · subst hid
          rw [Function.update_self] at hrecord
          exact .inr ⟨waiting, wakeup, Option.some.inj hrecord ▸ hwritten⟩
        · rw [Function.update_of_ne hid] at hrecord
          exact .inl hrecord
      · exact .inl (by simpa [hstore] using hrecord)
    · exact .inl (by simpa [hs] using hrecord)

/-- An `ok` result that a step adds comes from a vouched record, or is the receipt
    the waking call just verified. -/
private theorem StepCases.ok_cases {w w' : World ι} {e : Event ι} (h : w.StepCases e w')
    (hbooked : w.Booked) (hprovenance : w.Provenance) {c : CallId} {receipt : JsValue}
    {replay : Bool} {operationId : JsString} {reasonCode : Option VerificationReasonCode}
    {auditEvents : List AuditLedgerEntry}
    (hsettled : .settled c (.returned (.ok receipt replay operationId reasonCode auditEvents)) ∈
      w'.trace) :
    ∃ session input, .started c session input ∈ w'.trace ∧
      w'.Vouched session input.operation.idempotencyKey receipt := by
  have hextends := h.trace_extends
  by_cases hold :
      .settled c (.returned (.ok receipt replay operationId reasonCode auditEvents)) ∈ w.trace
  · obtain ⟨session, input, hstarted, hvouched⟩ :=
      hprovenance.returned c receipt replay operationId reasonCode auditEvents hold
    exact ⟨session, input, hextends.subset hstarted, hvouched.mono hextends⟩
  -- a new result is a replay or the end of a wait
  cases h with
  | recorded => exact absurd (by simpa using hsettled) hold
  | started session input reads shared progress houtcome =>
    simp only [enter_trace, setShared_trace, setShared_nextCall, List.mem_append, List.mem_cons,
      hold, false_or] at hsettled
    rcases hsettled with hsettled | hsettled
    · cases hsettled
    cases houtcome with
    | replayed capability prior entry hguards hhash hrecord hstate =>
      simp only [progressTrace, List.mem_singleton, Observation.settled.injEq,
        Settled.returned.injEq, ExecuteActionResult.ok.injEq] at hsettled
      obtain ⟨rfl, rfl, -⟩ := hsettled
      exact ⟨session, input, by simp, (hprovenance.succeeded _ _ _ hrecord hstate).mono hextends⟩
    | entered =>
      simp only [progressTrace, invokeAdapter] at hsettled
      split at hsettled <;> simp [invocation] at hsettled
    | _ => simp [progressTrace, invocation] at hsettled
  | woke c' wakeup stamp session waiting shared settled hpending hsettlement =>
    obtain ⟨hstarted, -⟩ := hbooked.traced c' session waiting hpending
    simp only [leave_trace, setShared_trace, List.mem_append, List.mem_cons, List.not_mem_nil,
      or_false, hold, false_or] at hsettled
    rcases hsettled with hsettled | hsettled
    · cases hsettled
    obtain ⟨rfl, rfl⟩ := Observation.settled.inj hsettled
    cases hsettlement with
    | verified _ _ _ entry hreceives hverified =>
      exact ⟨session, waiting.input, by simp [hstarted],
        vouched_of_wake hbooked hpending hreceives hverified⟩

/-- The invariant is kept by every step. -/
theorem Provenance.step {w w' : World ι} {e : Event ι} (hprovenance : w.Provenance)
    (hbooked : w.Booked) (h : w.StepCases e w') : w'.Provenance where
  wellFormed session key record hrecord := by
    rcases h.recordOf_cases session key with
      heq | ⟨_, _, _, _, _, _, record', _, _, _, _, hwritten, _, heq⟩
    · exact hprovenance.wellFormed session key record (heq ▸ hrecord)
    · obtain rfl := Option.some.inj (heq.symm.trans hrecord)
      exact hwritten.wellFormed
  operationWellFormed session operationId record hrecord := by
    rcases h.lookup_cases hrecord with hold | ⟨_, _, hwritten⟩
    · exact hprovenance.operationWellFormed session operationId record hold
    · exact hwritten.wellFormed
  succeeded session key record hrecord hstate := by
    rcases h.recordOf_cases session key with
      heq | ⟨c, wakeup, stamp, waiting, shared, settled, record', rfl, hpending, hsettlement,
        hstore, hwritten, rfl, heq⟩
    · exact (hprovenance.succeeded session key record (heq ▸ hrecord) hstate).mono h.trace_extends
    · obtain rfl := Option.some.inj (heq.symm.trans hrecord)
      obtain ⟨hreceives, hverified⟩ := hwritten.verified hstate
      -- the receipt is the one the call has just been woken with
      cases h with
      | woke _ _ _ session' waiting' shared' settled' hpending' =>
        obtain ⟨rfl, rfl⟩ := Prod.mk.inj (Option.some.inj (hpending.symm.trans hpending'))
        exact vouched_of_wake hbooked hpending hreceives hverified
  returned c receipt replay operationId reasonCode auditEvents hsettled :=
    h.ok_cases hbooked hprovenance hsettled
  reconciling c session call hc := by
    rcases h.pending_cases hbooked hc with ⟨hold, -, -⟩ | ⟨-, _, _, _, -, houtcome, -⟩
    · exact hprovenance.reconciling c session call hold
    · rcases houtcome.waiting_cases (hprovenance.wellFormed session) with
        ⟨hraces, -⟩ | ⟨prior, hcall, _, _, _, _, hunknown⟩
      · cases hraces
      · obtain rfl := Waiting.lookingUp.inj hcall
        exact hunknown

/-- The invariant holds after every run from an empty store. -/
theorem Provenance.run {w₀ w : World ι} {es : List (Event ι)} (h₀ : w₀.Fresh)
    (hrun : Transition.run World.step w₀ es = some w) : w.Booked ∧ w.Provenance :=
  Transition.run_invariant (P := fun w : World ι => w.Booked ∧ w.Provenance)
    (fun _ _ _ ⟨hbooked, hprovenance⟩ hstep =>
      have h := step_cases hstep
      ⟨hbooked.step h, hprovenance.step hbooked h⟩)
    ⟨h₀.booked, h₀.provenance⟩ hrun

/-- What the invariant says of the results and the records. -/
structure NoUnverifiedSuccess (w : World ι) : Prop where
  /-- every `ok` result carries a receipt that the adapter returned inside some call
      with the same idempotency key, and that verified in that call -/
  returned : ∀ c receipt replay operationId reasonCode auditEvents,
    .settled c (.returned (.ok receipt replay operationId reasonCode auditEvents)) ∈ w.trace →
    ∃ session input, .started c session input ∈ w.trace ∧
      w.Vouched session input.operation.idempotencyKey receipt
  /-- a success is recorded with its receipt and a verified report -/
  succeeded : ∀ session record,
    (∃ key, (w.stores session).byIdempotencyKey key = some record) ∨
      (∃ operationId, (w.stores session).byOperationId operationId = some record) →
    record.state = .succeeded → record.receipt.isUndefined = false ∧
      record.postconditionReport = some { verified := true }
  /-- any other outcome is recorded without a receipt -/
  notSucceeded : ∀ session record,
    (∃ key, (w.stores session).byIdempotencyKey key = some record) ∨
      (∃ operationId, (w.stores session).byOperationId operationId = some record) →
    record.state = .failed ∨ record.state = .unknownOutcome → record.receipt = .undefined

omit [DecidableEq ι] in
/-- A record in either map of a store is well formed. -/
private theorem Provenance.wellFormed_of_mem {w : World ι} (h : w.Provenance) {session : ι}
    {record : OperationRecord}
    (hrecord : (∃ key, (w.stores session).byIdempotencyKey key = some record) ∨
      (∃ operationId, (w.stores session).byOperationId operationId = some record)) :
    record.WellFormed := by
  rcases hrecord with ⟨key, hrecord⟩ | ⟨operationId, hrecord⟩
  · exact h.wellFormed session key record hrecord
  · exact h.operationWellFormed session operationId record hrecord

/-- From an empty store, no run of `executeAction` calls reports or records a success
    that was not verified. -/
theorem success_is_verified {w₀ w : World ι} {es : List (Event ι)} (h₀ : w₀.Fresh)
    (hrun : Transition.run World.step w₀ es = some w) : w.NoUnverifiedSuccess := by
  obtain ⟨-, hprovenance⟩ := Provenance.run h₀ hrun
  exact {
    returned := hprovenance.returned
    succeeded := fun _ _ hrecord => (hprovenance.wellFormed_of_mem hrecord).succeeded
    notSucceeded := fun _ _ hrecord hstate =>
      (hprovenance.wellFormed_of_mem hrecord).notSucceeded fun hsucceeded => by
        rcases hstate with hstate | hstate <;> cases hstate.symm.trans hsucceeded }

end

/-! ## A run on Node -/

section
attribute [local instance] node

/-- A fresh success and its replay. -/
theorem sequentialCalls_success_is_verified : Sample.afterSequentialCalls.NoUnverifiedSuccess :=
  success_is_verified ⟨fun _ => rfl, fun _ => rfl, rfl⟩ Sample.run_sequentialCalls

end

end World

end ActionHarbor
