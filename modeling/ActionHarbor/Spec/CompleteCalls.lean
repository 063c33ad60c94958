import ActionHarbor.Spec.AdapterSteps

/-!
# Calls run to completion

What one call leaves behind when nothing overlaps it: its result, the store and the
tables of the fake. Without overlap no outcome stays unknown, so no call looks
anything up.

## Key results

- `AdapterWorld.complete_spec`: a call completes, with one of four effects
- `AdapterWorld.complete_run`: completing a call is a run of the interleaving
-/

namespace ActionHarbor

/-- The call returned `ok`. -/
def Settled.IsOk (settled : Settled) (receipt : JsValue) : Prop :=
  ∃ replay operationId reasonCode auditEvents,
    settled = .returned (.ok receipt replay operationId reasonCode auditEvents)

/-- A call begins or ends here. -/
def Observation.isBoundary {ι : Type} : Observation ι → Bool
  | .started _ _ _ | .settled _ _ => true
  | _ => false

section
variable [Host]

namespace AdapterWorld

/-! ## Effects -/

/-- What a completed call leaves behind: its result, the store and the fake. -/
inductive CallEffect (kind : FakeAdapterKind) (w : AdapterWorld) (input : ExecuteActionInput)
    (now : Instant) : Settled → OperationStore → FakeAdapter → Prop
  /-- refused, replayed as a failure, or thrown -/
  | unchanged (settled : Settled) (hnotOk : ∀ receipt, ¬ settled.IsOk receipt) :
      CallEffect kind w input now settled (w.world.stores ()) w.adapter.inner
  /-- answered from the store -/
  | replayed (capability : Capability) (prior : OperationRecord) (entry : AuditLedgerEntry)
      (hguards : PassesGuards input now capability)
      (hhash : hashCanonical input.params = .ok prior.payloadHash)
      (hrecord : w.world.recordOf () input.operation.idempotencyKey = some prior)
      (hstate : prior.state = .succeeded) :
      CallEffect kind w input now
        (.returned (.ok prior.receipt true prior.operationId (some .idempotentReplay) [entry]))
        (w.world.stores ()) w.adapter.inner
  /-- executed and verified -/
  | succeeded (capability : Capability) (record : OperationRecord) (inner : FakeAdapter)
      (auditEvents : List AuditLedgerEntry) (hguards : PassesGuards input now capability)
      (hhash : hashCanonical input.params = .ok record.payloadHash)
      (hnew : w.world.recordOf () input.operation.idempotencyKey = none)
      (hexecuted : FakeAdapter.ExecuteOutcome kind w.adapter.inner input.operation capability
        input.params inner record.receipt)
      (hverified : verifyPostcondition input.request.actionType record.receipt
        input.postcondition = true)
      (hkey : record.idempotencyKey = input.operation.idempotencyKey)
      (hstate : record.state = .succeeded) :
      CallEffect kind w input now
        (.returned (.ok record.receipt false input.operation.operationId none auditEvents))
        ((w.world.stores ()).record record) inner
  /-- the adapter refused or threw, or its receipt did not verify -/
  | failed (capability : Capability) (settled : Settled) (record : OperationRecord)
      (inner : FakeAdapter) (hnew : w.world.recordOf () input.operation.idempotencyKey = none)
      (hinner : inner = w.adapter.inner ∨ ∃ receipt, FakeAdapter.ExecuteOutcome kind
        w.adapter.inner input.operation capability input.params inner receipt)
      (hnotOk : ∀ receipt, ¬ settled.IsOk receipt)
      (hkey : record.idempotencyKey = input.operation.idempotencyKey)
      (hstate : record.state = .failed) :
      CallEffect kind w input now settled ((w.world.stores ()).record record) inner

/-- A call has been run to completion, and nothing else. -/
structure Completed (kind : FakeAdapterKind) (w : AdapterWorld) (call : CompleteCall)
    (w' : AdapterWorld) (settled : Settled) : Prop where
  effect : CallEffect kind w call.input call.reads.now settled (w'.world.stores ()) w'.adapter.inner
  idle : ∀ c, w'.world.pending c = none
  trace : ∃ middle, (∀ o ∈ middle, o.isBoundary = false) ∧
    w'.world.trace = w.world.trace ++ .started w.world.nextCall () call.input ::
      (middle ++ [.settled w.world.nextCall settled])

/-- No call is in flight, and every outcome is decided. -/
structure Quiescent (w : AdapterWorld) : Prop where
  idle : ∀ c, w.world.pending c = none
  decided : ∀ key record, w.world.recordOf () key = some record → record.state ≠ .unknownOutcome
  received : ∀ key record, w.world.recordOf () key = some record → record.state = .succeeded →
    record.receipt.isUndefined = false

/-! ## Completing a call -/

/-- A call in flight that settles. -/
theorem wake_eq {w : AdapterWorld} {c : CallId} {waiting : Waiting} {wakeup : Wakeup}
    {stamp : Stamp} {result : Shared × Settled}
    (hpending : w.world.pending c = some ((), waiting))
    (hresume : waiting.resume wakeup (w.world.shared ()) stamp = some result) :
    w.wake c wakeup stamp = some { w with
      world := (w.world.setShared () result.1).leave c wakeup result.2 } := by
  simp [wake, World.step, hpending, hresume]

/-- The state in which a call has begun to wait. -/
def begun (w : AdapterWorld) (input : ExecuteActionInput) (shared : Shared) (waiting : Waiting) :
    AdapterWorld :=
  AdapterWorld.invoke
    { w with world := (w.world.setShared () shared).enter () input (.waiting waiting) }
    w.world.nextCall waiting

section
omit [Host]
variable (w : AdapterWorld) (input : ExecuteActionInput) (shared : Shared) (waiting : Waiting)

@[simp] theorem begun_world : (w.begun input shared waiting).world =
    (w.world.setShared () shared).enter () input (.waiting waiting) := by
  rw [begun, invoke_world]

@[simp] theorem begun_inner : (w.begun input shared waiting).adapter.inner = w.adapter.inner := by
  rw [begun, invoke_inner]

theorem begun_pending :
    (w.begun input shared waiting).world.pending w.world.nextCall = some ((), waiting) := by
  simp [World.enter]

theorem begun_shared : (w.begun input shared waiting).world.shared () = shared := by
  simp [World.shared, World.enter, World.setShared]

end

/-- A call that begins to wait. -/
theorem start_waiting {w : AdapterWorld} {input : ExecuteActionInput} {reads : CallReads}
    {shared : Shared} {waiting : Waiting}
    (hstart : executeAction (w.world.shared ()) input reads = (shared, .waiting waiting)) :
    w.start input reads = some (w.begun input shared waiting) := by
  simp [start, World.step, hstart, World.enter, begun]

/-- A call that settles at once. -/
theorem start_done {w : AdapterWorld} {input : ExecuteActionInput} {reads : CallReads}
    {shared : Shared} {settled : Settled} (hidle : w.world.pending w.world.nextCall = none)
    (hstart : executeAction (w.world.shared ()) input reads = (shared, .done settled)) :
    w.start input reads = some { w with
      world := (w.world.setShared () shared).enter () input (.done settled) } := by
  simp [start, World.step, hstart, World.enter, hidle]

/-- The wakeup of an execution that has run. -/
def outcomeWakeup : Except AdapterError JsValue → Wakeup
  | .ok receipt => .executeResolved receipt
  | .error error => .executeRejected error

omit [Host] in
@[simp] theorem wakeup_executed (outcome : Except AdapterError JsValue) :
    (AdapterPromise.executed outcome).wakeup = some (outcomeWakeup outcome) := by
  cases outcome <;> rfl

/-- The state after a call that waited has been continued. -/
def ended (w : AdapterWorld) (wakeup : Wakeup) (result : Shared × Settled) (c : CallId) :
    AdapterWorld :=
  { w with world := (w.world.setShared () result.1).leave c wakeup result.2 }

/-- The trace and the calls in flight once a call that waited has ended. -/
private theorem completed_of_ended {kind : FakeAdapterKind} {w w₁ : AdapterWorld}
    {call : CompleteCall} {shared : Shared} {waiting : Waiting} {wakeup : Wakeup}
    {result : Shared × Settled} (hidle : ∀ c, w.world.pending c = none)
    (hworld : w₁.world = (w.begun call.input shared waiting).world)
    (heffect : CallEffect kind w call.input call.reads.now result.2 result.1.operationStore
      w₁.adapter.inner) :
    Completed kind w call (w₁.ended wakeup result w.world.nextCall) result.2 where
  effect := by simpa [ended] using heffect
  idle c := by
    by_cases hc : c = w.world.nextCall
    · subst hc
      simp [ended]
    · simp [ended, hworld, World.enter, hc, hidle]
  trace := by
    refine ⟨World.invocation w.world.nextCall () waiting ++ [.woke w.world.nextCall wakeup],
      ?_, by simp [ended, hworld, World.progressTrace]⟩
    intro o ho
    rcases List.mem_append.mp ho with ho | ho
    · cases waiting with
      | executing _ | lookingUp _ => rw [World.invocation, List.mem_singleton] at ho; rw [ho]; rfl
      | refused _ _ => cases ho
    · rw [List.mem_singleton.mp ho]; rfl

/-- A call that never waits is complete when it has started. -/
theorem complete_done {kind : FakeAdapterKind} {w : AdapterWorld} {call : CompleteCall}
    {shared : Shared} {settled : Settled} (hidle : ∀ c, w.world.pending c = none)
    (hresult : executeAction (w.world.shared ()) call.input call.reads = (shared, .done settled)) :
    w.complete kind call = some { w with
      world := (w.world.setShared () shared).enter () call.input (.done settled) } := by
  simp [complete, step, start_done (hidle _) hresult, World.enter, hidle]

/-- A completed call that never waited. -/
private theorem completed_done {kind : FakeAdapterKind} {w : AdapterWorld} {call : CompleteCall}
    {shared : Shared} {settled : Settled} (hidle : ∀ c, w.world.pending c = none)
    (hresult : executeAction (w.world.shared ()) call.input call.reads = (shared, .done settled))
    (hstore : shared.operationStore = w.world.stores ())
    (heffect : CallEffect kind w call.input call.reads.now settled (w.world.stores ())
      w.adapter.inner) :
    ∃ w' settled, w.complete kind call = some w' ∧ Completed kind w call w' settled := by
  refine ⟨_, settled, complete_done hidle hresult, ?_⟩
  exact {
    effect := by simpa [hstore] using heffect
    idle := hidle
    trace := ⟨[], by simp, by simp [World.progressTrace]⟩ }

/-- The effect of a call whose race the fake has decided. -/
private theorem effect_of_settlement {kind : FakeAdapterKind} {w : AdapterWorld}
    {input : ExecuteActionInput} {now : Instant} {capability : Capability} {payloadHash : JsString}
    {auditEvents : List AuditLedgerEntry} {outcome : Except AdapterError JsValue}
    {inner : FakeAdapter} {shared shared' : Shared} {settled : Settled}
    (hguards : PassesGuards input now capability)
    (hhash : hashCanonical input.params = .ok payloadHash)
    (hnew : w.world.recordOf () input.operation.idempotencyKey = none)
    (hanswer : (∃ error, outcome = .error error ∧ inner = w.adapter.inner) ∨
      ∃ receipt, outcome = .ok receipt ∧ FakeAdapter.ExecuteOutcome kind w.adapter.inner
        input.operation capability input.params inner receipt)
    (hstore : shared.operationStore = w.world.stores ())
    (hsettlement : Settlement shared (.executing ⟨input, capability, payloadHash, auditEvents⟩)
      (outcomeWakeup outcome) shared' settled) :
    CallEffect kind w input now settled shared'.operationStore inner := by
  -- the adapter has rejected the call, or returned a receipt that may fail the check
  rcases hanswer with ⟨error, rfl, rfl⟩ | ⟨receipt, rfl, houtcome⟩
  · cases hsettlement with
    | rejected call error errorMessage hmessage =>
      rw [hstore]
      exact .failed capability _ _ _ hnew (.inl rfl) (by simp [Settled.IsOk]) rfl rfl
    | crashed call error hmessage =>
      rw [hstore]
      exact .unchanged _ (by simp [Settled.IsOk])
    | verified _ _ _ _ hreceives | unverified _ _ _ _ hreceives => cases hreceives
  · cases hsettlement with
    | verified _ _ receipt' entry hreceives hverified =>
      cases hreceives
      rw [Shared.recorded, Shared.appendRow_operationStore, hstore]
      exact .succeeded capability
        (Waiting.succeededRecord (.executing ⟨input, capability, payloadHash, auditEvents⟩) receipt)
        inner _ hguards hhash hnew houtcome hverified rfl rfl
    | unverified _ _ receipt' entry hreceives hunverified =>
      cases hreceives
      rw [Shared.recorded, Shared.appendRow_operationStore, hstore]
      exact .failed capability _ _ _ hnew (.inr ⟨receipt, houtcome⟩) (by simp [Settled.IsOk]) rfl
        rfl

/-- A call that reached the adapter, run to completion. -/
private theorem completed_executing {kind : FakeAdapterKind} (hkind : IsFakeAdapter kind)
    {w : AdapterWorld} {call : CompleteCall} {shared : Shared} {capability : Capability}
    {payloadHash : JsString} {entry : AuditLedgerEntry} (hidle : ∀ c, w.world.pending c = none)
    (hresult : executeAction (w.world.shared ()) call.input call.reads =
      (shared, .waiting (.executing ⟨call.input, capability, payloadHash, [entry]⟩)))
    (hstore : shared.operationStore = w.world.stores ())
    (hguards : PassesGuards call.input call.reads.now capability)
    (hhash : hashCanonical call.input.params = .ok payloadHash)
    (hnew : w.world.recordOf () call.input.operation.idempotencyKey = none) :
    ∃ w' settled, w.complete kind call = some w' ∧ Completed kind w call w' settled := by
  set racing : RacingCall := ⟨call.input, capability, payloadHash, [entry]⟩ with hracing
  set w₁ := w.begun call.input shared (.executing racing) with hw₁
  set answer := w₁.adapter.execute kind call.input.operation capability call.input.params call.draw
    with hanswer
  set w₂ : AdapterWorld := { w₁ with
    adapter := answer.1
    promises := Function.update w₁.promises w.world.nextCall (some (.executed answer.2)) } with hw₂
  have hpending : w₁.world.pending w.world.nextCall = some ((), .executing racing) :=
    begun_pending w call.input shared (.executing racing)
  have hexecute : w₁.execute kind w.world.nextCall call.draw = some w₂ := by
    simp [execute, hw₁, begun, invoke, hw₂, hanswer, hracing]
  -- whatever the fake answered, the race is decided by it
  obtain ⟨result, hresume⟩ : ∃ result, (Waiting.executing racing).resume (outcomeWakeup answer.2)
      (w₂.world.shared ()) call.stamp = some result := by
    cases answer.2 <;> exact ⟨_, rfl⟩
  have hdeliver : w₂.step kind (.deliver w.world.nextCall call.stamp) =
      some (w₂.ended (outcomeWakeup answer.2) result w.world.nextCall) := by
    simp only [step, hw₂, Function.update_self, Option.bind_some, wakeup_executed]
    exact wake_eq hpending hresume
  have hcomplete : w.complete kind call =
      some (w₂.ended (outcomeWakeup answer.2) result w.world.nextCall) := by
    have hstart : w.step kind (.start call.input call.reads) = some w₁ := start_waiting hresult
    simp only [complete, hstart, Option.bind_eq_bind, Option.bind_some, hpending]
    exact Option.bind_eq_some_iff.mpr ⟨w₂, hexecute, hdeliver⟩
  refine ⟨_, _, hcomplete, completed_of_ended hidle (show w₂.world = w₁.world from rfl) ?_⟩
  have hsettlement := resume_cases hresume
  have hinner : w₁.adapter.inner = w.adapter.inner := begun_inner ..
  have hshared : w₂.world.shared () = shared := begun_shared ..
  rw [hshared] at hsettlement
  refine effect_of_settlement hguards hhash hnew ?_ hstore hsettlement
  rcases w₁.adapter.execute_cases hkind call.input.operation capability call.input.params
    call.draw with ⟨error, hthrown⟩ | ⟨inner, receipt, hreturned, -, houtcome⟩
  · exact .inl ⟨error, by rw [hanswer, hthrown], by rw [hw₂, hanswer, hthrown, hinner]⟩
  · rw [hinner] at houtcome
    exact .inr ⟨receipt, by rw [hanswer, hreturned], by rw [hw₂, hanswer, hreturned]; exact houtcome⟩

/-- A call whose capability the gateway refused after all, run to completion. -/
private theorem completed_refused {kind : FakeAdapterKind} {w : AdapterWorld} {call : CompleteCall}
    {shared : Shared} {racing : RacingCall} {reasonCode : CapabilityRejectionReason}
    (hidle : ∀ c, w.world.pending c = none)
    (hresult : executeAction (w.world.shared ()) call.input call.reads =
      (shared, .waiting (.refused racing reasonCode)))
    (hstore : shared.operationStore = w.world.stores ())
    (hkey : racing.input.operation.idempotencyKey = call.input.operation.idempotencyKey)
    (hnew : w.world.recordOf () call.input.operation.idempotencyKey = none) :
    ∃ w' settled, w.complete kind call = some w' ∧ Completed kind w call w' settled := by
  set w₁ := w.begun call.input shared (.refused racing reasonCode) with hw₁
  have hpending : w₁.world.pending w.world.nextCall = some ((), .refused racing reasonCode) :=
    begun_pending ..
  have hstart : w.step kind (.start call.input call.reads) = some w₁ := start_waiting hresult
  obtain ⟨⟨shared', settled⟩, hresume⟩ : ∃ result, (Waiting.refused racing reasonCode).resume
      .refusalDelivered (w₁.world.shared ()) call.stamp = some result := ⟨_, rfl⟩
  have hcomplete : w.complete kind call =
      some (w₁.ended .refusalDelivered (shared', settled) w.world.nextCall) := by
    simp only [complete, hstart, Option.bind_eq_bind, Option.bind_some, hpending]
    exact wake_eq hpending hresume
  refine ⟨_, _, hcomplete, completed_of_ended hidle (congrArg world hw₁) ?_⟩
  have hshared : w₁.world.shared () = shared := begun_shared ..
  -- nothing else runs between the start and the wakeup
  have hsettlement : Settlement _ _ _ shared' settled := resume_cases hresume
  rw [hshared] at hsettlement
  rw [begun_inner]
  cases hsettlement with
  | refusal =>
    rw [hstore]
    exact .failed racing.capability _ _ _ hnew (.inl rfl) (by simp [Settled.IsOk]) hkey rfl
  | verified _ _ _ _ hreceives | unverified _ _ _ _ hreceives => cases hreceives

/-- A call completes, with one of the four effects. -/
theorem complete_spec {kind : FakeAdapterKind} (hkind : IsFakeAdapter kind) {w : AdapterWorld}
    (hquiescent : w.Quiescent) (call : CompleteCall) :
    ∃ w' settled, w.complete kind call = some w' ∧ Completed kind w call w' settled := by
  have houtcome := executeAction_cases (w.world.shared ()) call.input call.reads
  cases hresult : executeAction (w.world.shared ()) call.input call.reads with
  | mk shared progress =>
  rw [hresult] at houtcome
  have hstore := houtcome.operationStore_eq
  cases houtcome with
  | replayed capability prior entry hguards hhash hrecord hstate =>
    exact completed_done hquiescent.idle hresult hstore
      (.replayed capability prior entry hguards hhash hrecord hstate)
  | capabilityRefused | preconditionFailed | unhashableParams | conflict | replayedFailure
    | registryRefused =>
    exact completed_done hquiescent.idle hresult hstore (.unchanged _ (by simp [Settled.IsOk]))
  | lookingUp capability prior hguards hhash hrecord hnotReplayed hnotFailed =>
    -- every outcome is decided, so it is a failure or a success with its receipt
    have hdecided := hquiescent.decided _ prior hrecord
    cases hstate : prior.state with
    | unknownOutcome => exact absurd hstate hdecided
    | failed => exact absurd hstate hnotFailed
    | succeeded =>
      exact absurd ⟨hstate, hquiescent.received _ prior hrecord hstate⟩ hnotReplayed
  | entered capability payloadHash registry entry hguards hhash hnew hconsume =>
    rw [invokeAdapter] at hresult
    split at hresult
    · exact completed_refused hquiescent.idle hresult hstore rfl hnew
    · exact completed_executing hkind hquiescent.idle hresult hstore hguards hhash hnew

/-- What succeeded after a completed call: what had, and the call itself when it
    returned `ok`. -/
theorem Completed.succeeded_iff {kind : FakeAdapterKind} {w w' : AdapterWorld}
    {call : CompleteCall} {settled : Settled} (h : Completed kind w call w' settled)
    (hbooked : w.world.Booked) {c : CallId} {input : ExecuteActionInput} {receipt : JsValue} :
    w'.world.Succeeded () c input receipt ↔ w.world.Succeeded () c input receipt ∨
      (c = w.world.nextCall ∧ input = call.input ∧ settled.IsOk receipt) := by
  obtain ⟨middle, hmiddle, htrace⟩ := h.trace
  have hfresh : ∀ o ∈ w.world.trace, o.callId ≠ some w.world.nextCall := fun o ho hid =>
    Nat.lt_irrefl _ (hbooked.trace_lt o ho _ hid)
  -- between its start and its end a call leaves no start and no end in the trace
  have hstarted : ∀ c input, .started c () input ∈ w'.world.trace ↔
      .started c () input ∈ w.world.trace ∨ (c = w.world.nextCall ∧ input = call.input) := by
    intro c input
    have hmid : .started c () input ∉ middle := fun hmem => by cases hmiddle _ hmem
    simp [htrace, hmid]
  have hsettled : ∀ c s, .settled c s ∈ w'.world.trace ↔
      .settled c s ∈ w.world.trace ∨ (c = w.world.nextCall ∧ s = settled) := by
    intro c s
    have hmid : .settled c s ∉ middle := fun hmem => by cases hmiddle _ hmem
    simp [htrace, hmid]
  constructor
  · rintro ⟨hs, replay, operationId, reasonCode, auditEvents, hok⟩
    rcases (hstarted c input).mp hs with hs | ⟨rfl, rfl⟩
    · rcases (hsettled _ _).mp hok with hok | ⟨rfl, -⟩
      · exact .inl ⟨hs, replay, operationId, reasonCode, auditEvents, hok⟩
      · exact absurd rfl (hfresh _ hs)
    · rcases (hsettled _ _).mp hok with hok | ⟨-, rfl⟩
      · exact absurd rfl (hfresh _ hok)
      · exact .inr ⟨rfl, rfl, replay, operationId, reasonCode, auditEvents, rfl⟩
  · rintro (⟨hs, replay, operationId, reasonCode, auditEvents, hok⟩ | ⟨rfl, rfl, hok⟩)
    · exact ⟨(hstarted c input).mpr (.inl hs), replay, operationId, reasonCode, auditEvents,
        (hsettled _ _).mpr (.inl hok)⟩
    · obtain ⟨replay, operationId, reasonCode, auditEvents, rfl⟩ := hok
      exact ⟨(hstarted _ _).mpr (.inr ⟨rfl, rfl⟩), replay, operationId, reasonCode, auditEvents,
        (hsettled _ _).mpr (.inr ⟨rfl, rfl⟩)⟩

/-- A recorded success answers the call. -/
theorem complete_replays {kind : FakeAdapterKind} {w : AdapterWorld} (hquiescent : w.Quiescent)
    {call : CompleteCall} {capability : Capability} {prior : OperationRecord}
    (hguards : PassesGuards call.input call.reads.now capability)
    (hhash : hashCanonical call.input.params = .ok prior.payloadHash)
    (hrecord : w.world.recordOf () call.input.operation.idempotencyKey = some prior)
    (hstate : prior.state = .succeeded) :
    ∃ w', w.complete kind call = some w' ∧
      w'.world.Succeeded () w.world.nextCall call.input prior.receipt := by
  have houtcome := executeAction_cases (w.world.shared ()) call.input call.reads
  cases hresult : executeAction (w.world.shared ()) call.input call.reads with
  | mk shared progress =>
  rw [hresult] at houtcome
  obtain ⟨entry, -, rfl⟩ := houtcome.replayed_of_recorded hguards hhash hrecord hstate
    (hquiescent.received _ prior hrecord hstate)
  refine ⟨_, complete_done hquiescent.idle hresult, by simp, true, prior.operationId,
    some .idempotentReplay, [entry], ?_⟩
  simp [World.progressTrace]

/-- Completing a call is a run of the interleaving. -/
theorem complete_run {kind : FakeAdapterKind} {w w' : AdapterWorld} {call : CompleteCall}
    (h : w.complete kind call = some w') : ∃ es, Transition.run (step kind) w es = some w' := by
  simp only [complete, Option.bind_eq_bind, Option.bind_eq_some_iff] at h
  obtain ⟨started, hstart, h⟩ := h
  split at h
  · obtain rfl := Option.some.inj h
    exact ⟨[_], Transition.run_cons_eq_some.mpr ⟨_, hstart, rfl⟩⟩
  · obtain ⟨executed, hexecute, hdeliver⟩ := Option.bind_eq_some_iff.mp h
    exact ⟨[_, _, _], Transition.run_cons_eq_some.mpr ⟨_, hstart,
      Transition.run_cons_eq_some.mpr ⟨_, hexecute,
        Transition.run_cons_eq_some.mpr ⟨_, hdeliver, rfl⟩⟩⟩⟩
  · exact ⟨[_, _], Transition.run_cons_eq_some.mpr ⟨_, hstart,
      Transition.run_cons_eq_some.mpr ⟨_, h, rfl⟩⟩⟩
  · exact ⟨[_, _], Transition.run_cons_eq_some.mpr ⟨_, hstart,
      Transition.run_cons_eq_some.mpr ⟨_, h, rfl⟩⟩⟩

end AdapterWorld

end

end ActionHarbor
