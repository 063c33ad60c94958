import ActionHarbor.Spec.Provenance

/-!
# Replay of a recorded operation

A call whose key has a record never executes and never consumes a capability. It
is answered from the record, except that an unknown outcome is looked up once and
decided by the postcondition check, whatever other calls do meanwhile.

## Key results

- `World.invocationsOf_run`: a started call makes no further adapter calls
- `World.Reconciling.run`: a reconciling call settles by the answer of its lookup
- `World.replay_semantics`: the table of answers
-/

namespace ActionHarbor

variable {ι : Type}

/-! ## Adapter calls of one call -/

/-- An observation of an adapter call made by this call. -/
def Observation.invokesAdapter (c : CallId) : Observation ι → Bool
  | .executeInvoked c' _ _ _ _ | .lookupInvoked c' _ _ => c' = c
  | _ => false

theorem Observation.callId_of_invokesAdapter {c : CallId} {o : Observation ι}
    (h : o.invokesAdapter c = true) : o.callId = some c := by
  cases o with
  | executeInvoked | lookupInvoked => exact congrArg some (of_decide_eq_true h)
  | _ => cases h

/-- What a reconciling call settles with, by the answer of its lookup. -/
inductive Reconciled [Host] (input : ExecuteActionInput) (prior : OperationRecord) :
    LookupAnswer → Settled → Prop
  | inconclusive (value status : JsValue) (auditEvents : List AuditLedgerEntry)
      (hstatus : value.getProp (js "status") = some status)
      (hunknown : status.isString (js "unknown") = true) :
      Reconciled input prior (.resolved value)
        (.returned (.reconciliationRequired prior.operationId auditEvents))
  | verified (value status receipt : JsValue) (auditEvents : List AuditLedgerEntry)
      (hstatus : value.getProp (js "status") = some status)
      (hfound : status.isString (js "unknown") = false)
      (hreceipt : value.getProp (js "receipt") = some receipt)
      (hverified : verifyPostcondition input.request.actionType receipt
        input.postcondition = true) :
      Reconciled input prior (.resolved value)
        (.returned (.ok receipt true input.operation.operationId (some .reconciledSuccess)
          auditEvents))
  | unverified (value status receipt : JsValue) (auditEvents : List AuditLedgerEntry)
      (hstatus : value.getProp (js "status") = some status)
      (hfound : status.isString (js "unknown") = false)
      (hreceipt : value.getProp (js "receipt") = some receipt)
      (hunverified : verifyPostcondition input.request.actionType receipt
        input.postcondition = false) :
      Reconciled input prior (.resolved value) (.returned (.postcondition auditEvents))
  | malformed (value : JsValue) (hstatus : value.getProp (js "status") = none) :
      Reconciled input prior (.resolved value) (.threw .notAnObject)
  | rejected : Reconciled input prior .rejected (.threw .lookupRejected)

/-- A value with one readable property has every property readable. -/
private theorem getProp_receipt {value status : JsValue} {key : JsString}
    (h : value.getProp key = some status) (key' : JsString) :
    value.getProp key' = some ((value.getProp key').getD .undefined) := by
  cases value <;> first | rfl | cases h

section
variable [Host]

/-- A reconciling call settles by the table. -/
theorem Settlement.reconciled {shared shared' : Shared} {call : LookupCall} {wakeup : Wakeup}
    {settled : Settled} (h : Settlement shared (.lookingUp call) wakeup shared' settled) :
    ∃ answer, wakeup = .lookupSettled answer ∧ Reconciled call.input call.prior answer settled := by
  generalize hwaiting : Waiting.lookingUp call = waiting at h
  -- only a lookup's answer wakes a call that looks up
  cases h with
  | verified _ _ receipt entry hreceives hverified =>
    subst hwaiting
    cases hreceives with
    | found _ value status hstatus hfound =>
      exact ⟨_, rfl, .verified value status _ _ hstatus hfound (getProp_receipt hstatus _)
        hverified⟩
  | unverified _ _ receipt entry hreceives hunverified =>
    subst hwaiting
    cases hreceives with
    | found _ value status hstatus hfound =>
      exact ⟨_, rfl, .unverified value status _ _ hstatus hfound (getProp_receipt hstatus _)
        hunverified⟩
  | inconclusive call' value status entry hstatus hunknown =>
    obtain rfl := Waiting.lookingUp.inj hwaiting
    exact ⟨_, rfl, .inconclusive value status _ hstatus hunknown⟩
  | lookupMalformed call' value hstatus => exact ⟨_, rfl, .malformed value hstatus⟩
  | lookupRejected call' => exact ⟨_, rfl, .rejected⟩
  | timedOut | rejected | crashed | refusal => cases hwaiting

end

namespace World

/-- The adapter calls this call has made, oldest first. -/
def invocationsOf (w : World ι) (c : CallId) : List (Observation ι) :=
  w.trace.filter (Observation.invokesAdapter c)

section
variable [Host] [DecidableEq ι]

/-- A call that was started before a step makes no adapter call in it. -/
private theorem StepCases.invocationsOf_eq {w w' : World ι} {e : Event ι} (h : w.StepCases e w')
    {c : CallId} (hc : c < w.nextCall) : w'.invocationsOf c = w.invocationsOf c := by
  cases h with
  | recorded capability => simp [invocationsOf, Observation.invokesAdapter]
  | woke => simp [invocationsOf, Observation.invokesAdapter]
  | started session input reads shared progress houtcome =>
    have hnone : (progressTrace w.nextCall session progress).filter
        (Observation.invokesAdapter c) = [] := by
      rw [List.filter_eq_nil_iff]
      intro o ho hinvokes
      have hid := (callId_of_mem_progressTrace ho).symm.trans
        (Observation.callId_of_invokesAdapter hinvokes)
      exact absurd hc (Option.some.inj hid ▸ Nat.lt_irrefl _)
    simp [invocationsOf, Observation.invokesAdapter, hnone]

/-- Nor in any later run. -/
theorem invocationsOf_run {w w' : World ι} {es : List (Event ι)} {c : CallId}
    (hc : c < w.nextCall) (hrun : Transition.run World.step w es = some w') :
    w'.invocationsOf c = w.invocationsOf c :=
  (Transition.run_invariant
    (P := fun s : World ι => c < s.nextCall ∧ s.invocationsOf c = w.invocationsOf c)
    (fun _ _ _ ⟨hlt, heq⟩ hstep =>
      have h := step_cases hstep
      ⟨Nat.lt_of_lt_of_le hlt h.nextCall_le, (h.invocationsOf_eq hlt).trans heq⟩)
    ⟨hc, rfl⟩ hrun).2

/-! ## Reconciling calls -/

/-- A reconciling call still waits for its lookup, or has settled by its answer. -/
def Reconciling (w : World ι) (c : CallId) (session : ι) (input : ExecuteActionInput)
    (prior : OperationRecord) : Prop :=
  (w.pending c = some (session, .lookingUp ⟨input, prior⟩) ∧
    ∀ settled, .settled c settled ∉ w.trace) ∨
  (w.pending c = none ∧ ∃ answer settled,
    .woke c (.lookupSettled answer) ∈ w.trace ∧ Reconciled input prior answer settled ∧
    ∀ settled', .settled c settled' ∈ w.trace ↔ settled' = settled)

/-- A step settles a call only when it starts or wakes it. -/
private theorem StepCases.settled_iff {w w' : World ι} {e : Event ι} (h : w.StepCases e w')
    {c : CallId} (hc : c < w.nextCall) (hwaits : ∀ wakeup stamp, e ≠ .wake c wakeup stamp)
    (settled : Settled) : .settled c settled ∈ w'.trace ↔ .settled c settled ∈ w.trace := by
  refine ⟨fun hmem => ?_, fun hmem => h.trace_extends.subset hmem⟩
  cases h with
  | recorded => simpa using hmem
  | started session input reads shared progress houtcome =>
    simp only [enter_trace, setShared_trace, setShared_nextCall, List.mem_append,
      List.mem_cons] at hmem
    rcases hmem with hold | hnew | hnew
    · exact hold
    · cases hnew
    · have hid := callId_of_mem_progressTrace hnew
      -- the observation would belong to the new call
      exact absurd hc (Option.some.inj hid ▸ Nat.lt_irrefl _)
  | woke c' wakeup stamp session waiting shared settled' hpending hsettlement =>
    simp only [leave_trace, setShared_trace, List.mem_append, List.mem_cons, List.not_mem_nil,
      or_false, reduceCtorEq, false_or, Observation.settled.injEq] at hmem
    rcases hmem with hold | ⟨rfl, -⟩
    · exact hold
    · exact absurd rfl (hwaits wakeup stamp)

/-- The pending entry of a started call moves only when it wakes. -/
private theorem StepCases.pending_eq {w w' : World ι} {e : Event ι} (h : w.StepCases e w')
    {c : CallId} (hc : c < w.nextCall) (hwaits : ∀ wakeup stamp, e ≠ .wake c wakeup stamp) :
    w'.pending c = w.pending c := by
  cases h with
  | recorded => rfl
  | started session input reads shared progress houtcome =>
    cases progress with
    | done settled => rfl
    | waiting waiting => simp [enter, Function.update_of_ne (Nat.ne_of_lt hc)]
  | woke c' wakeup stamp session waiting shared settled hpending hsettlement =>
    have hne : c ≠ c' := fun heq => hwaits wakeup stamp (by rw [heq])
    simp [Function.update_of_ne hne]

/-- A step keeps a reconciling call waiting, or settles it by the table. -/
theorem Reconciling.step {w w' : World ι} {e : Event ι} {c : CallId} {session : ι}
    {input : ExecuteActionInput} {prior : OperationRecord}
    (hreconciling : w.Reconciling c session input prior) (hc : c < w.nextCall)
    (h : w.StepCases e w') : w'.Reconciling c session input prior := by
  by_cases hwaits : ∀ wakeup stamp, e ≠ .wake c wakeup stamp
  · rcases hreconciling with ⟨hpending, hsettled⟩ | ⟨hpending, answer, settled, hwoke, htable, hsettled⟩
    · exact .inl ⟨(h.pending_eq hc hwaits).trans hpending,
        fun settled => fun hmem => hsettled settled ((h.settled_iff hc hwaits settled).mp hmem)⟩
    · exact .inr ⟨(h.pending_eq hc hwaits).trans hpending, answer, settled,
        h.trace_extends.subset hwoke, htable,
        fun settled' => (h.settled_iff hc hwaits settled').trans (hsettled settled')⟩
  · simp only [ne_eq, not_forall, not_not] at hwaits
    -- the call's own wakeup answers it, and only once
    obtain ⟨wakeup, stamp, rfl⟩ := hwaits
    cases h with
    | woke _ _ _ session' waiting shared settled hpending' hsettlement =>
      rcases hreconciling with ⟨hpending, hsettled⟩ | ⟨hpending, -⟩
      · obtain ⟨rfl, rfl⟩ := Prod.mk.inj (Option.some.inj (hpending.symm.trans hpending'))
        obtain ⟨answer, rfl, htable⟩ := hsettlement.reconciled
        refine .inr ⟨by simp, answer, settled, by simp, htable, fun settled' => ?_⟩
        simp [hsettled settled']
      · cases hpending.symm.trans hpending'

/-- Whatever other calls do meanwhile. -/
theorem Reconciling.run {w w' : World ι} {es : List (Event ι)} {c : CallId} {session : ι}
    {input : ExecuteActionInput} {prior : OperationRecord}
    (hreconciling : w.Reconciling c session input prior) (hc : c < w.nextCall)
    (hrun : Transition.run World.step w es = some w') :
    w'.Reconciling c session input prior :=
  (Transition.run_invariant
    (P := fun s : World ι => c < s.nextCall ∧ s.Reconciling c session input prior)
    (fun _ _ _ ⟨hlt, hinv⟩ hstep =>
      have h := step_cases hstep
      ⟨Nat.lt_of_lt_of_le hlt h.nextCall_le, hinv.step hlt h⟩)
    ⟨hc, hreconciling⟩ hrun).2

/-! ## The table of answers -/

/-- A call under a recorded key: `w` is the state before its start, `w'` the state
    after it. -/
structure Replays (w w' : World ι) (session : ι) (input : ExecuteActionInput)
    (record : OperationRecord) (payloadHash : JsString) : Prop where
  /-- no capability is consumed -/
  registry_eq : w'.registry = w.registry
  /-- another payload: refused, without an adapter call -/
  conflict : record.payloadHash ≠ payloadHash →
    (∃ auditEvents, w'.trace = w.trace ++ [.started w.nextCall session input,
      .settled w.nextCall (.returned (.idempotency auditEvents))]) ∧
    ∀ es w'', Transition.run World.step w' es = some w'' → w''.invocationsOf w.nextCall = []
  /-- a success: the recorded receipt, without an adapter call -/
  succeeded : record.payloadHash = payloadHash → record.state = .succeeded →
    (∃ auditEvents, w'.trace = w.trace ++ [.started w.nextCall session input,
      .settled w.nextCall (.returned (.ok record.receipt true record.operationId
        (some .idempotentReplay) auditEvents))]) ∧
    ∀ es w'', Transition.run World.step w' es = some w'' → w''.invocationsOf w.nextCall = []
  /-- a failure: the recorded message, without an adapter call -/
  failed : record.payloadHash = payloadHash → record.state = .failed →
    (∃ errorMessage, record.errorMessage = some errorMessage ∧
      w'.trace = w.trace ++ [.started w.nextCall session input,
        .settled w.nextCall (.returned (.adapter errorMessage []))]) ∧
    ∀ es w'', Transition.run World.step w' es = some w'' → w''.invocationsOf w.nextCall = []
  /-- an unknown outcome: one lookup, never an execution, and its answer, whenever it
      comes, decides without consuming a capability -/
  unknownOutcome : record.payloadHash = payloadHash → record.state = .unknownOutcome →
    ∀ es w'', Transition.run World.step w' es = some w'' →
      w''.invocationsOf w.nextCall = [.lookupInvoked w.nextCall session record.operationId] ∧
      w''.Reconciling w.nextCall session input record ∧
      (w''.pending w.nextCall ≠ none → ∀ answer stamp, ∃ w''',
        w''.step (.wake w.nextCall (.lookupSettled answer) stamp) = some w''' ∧
          w'''.registry = w''.registry)

/-- A call that settles at once makes no adapter call, then or later. -/
private theorem invocationsOf_done {w : World ι} (hbooked : w.Booked) {session : ι}
    {input : ExecuteActionInput} {shared : Shared} {settled : Settled} {es : List (Event ι)}
    {w'' : World ι}
    (hrun : Transition.run World.step
      ((w.setShared session shared).enter session input (.done settled)) es = some w'') :
    w''.invocationsOf w.nextCall = [] := by
  rw [invocationsOf_run (by simp) hrun, invocationsOf, List.filter_eq_nil_iff]
  intro o ho hinvokes
  have hid := Observation.callId_of_invokesAdapter hinvokes
  simp only [enter_trace, setShared_trace, setShared_nextCall, progressTrace, List.mem_append,
    List.mem_cons, List.not_mem_nil, or_false] at ho
  rcases ho with hold | rfl | rfl
  · exact Nat.lt_irrefl _ (hbooked.trace_lt o hold _ hid)
  · cases hinvokes
  · cases hinvokes

/-- A call that begins a lookup makes that one adapter call, and settles by its
    answer. -/
private theorem lookingUp_run {w : World ι} (hbooked : w.Booked) {session : ι}
    {input : ExecuteActionInput} {shared : Shared} {prior : OperationRecord}
    {es : List (Event ι)} {w'' : World ι}
    (hrun : Transition.run World.step
      ((w.setShared session shared).enter session input (.waiting (.lookingUp ⟨input, prior⟩)))
      es = some w'') :
    w''.invocationsOf w.nextCall = [.lookupInvoked w.nextCall session prior.operationId] ∧
      w''.Reconciling w.nextCall session input prior := by
  have hold : ∀ o ∈ w.trace, o.callId ≠ some w.nextCall := fun o ho hid =>
    Nat.lt_irrefl _ (hbooked.trace_lt o ho _ hid)
  -- nothing in the trace has the new call's number yet
  constructor
  · have hnone : w.trace.filter (Observation.invokesAdapter w.nextCall) = [] :=
      List.filter_eq_nil_iff.mpr fun o ho hinvokes =>
        hold o ho (Observation.callId_of_invokesAdapter hinvokes)
    rw [invocationsOf_run (by simp) hrun]
    simp [invocationsOf, Observation.invokesAdapter, progressTrace, invocation, hnone]
  · refine Reconciling.run (.inl ⟨by simp [enter], fun settled hmem => ?_⟩) (by simp) hrun
    simp only [enter_trace, setShared_trace, setShared_nextCall, progressTrace, invocation,
      List.mem_append, List.mem_cons, reduceCtorEq, List.not_mem_nil, or_false] at hmem
    exact hold _ hmem rfl

/-- A reconciling call can be answered at any time, which leaves the registry alone. -/
private theorem Reconciling.answer {w : World ι} {c : CallId} {session : ι}
    {input : ExecuteActionInput} {prior : OperationRecord}
    (hreconciling : w.Reconciling c session input prior) (hwaits : w.pending c ≠ none)
    (answer : LookupAnswer) (stamp : Stamp) :
    ∃ w', w.step (.wake c (.lookupSettled answer) stamp) = some w' ∧
      w'.registry = w.registry := by
  rcases hreconciling with ⟨hpending, -⟩ | ⟨hpending, -⟩
  · obtain ⟨w', hstep⟩ : ∃ w', w.step (.wake c (.lookupSettled answer) stamp) = some w' := by
      simp [World.step, hpending, Waiting.resume]
    refine ⟨w', hstep, ?_⟩
    rcases step_cases hstep with _ | _ | ⟨_, _, _, _, _, _, _, _, hsettlement⟩
    simp [hsettlement.registry_eq]
  · exact absurd hpending hwaits

/-- In every reachable state, a call that passes its guards under a key with a record
    is answered by the table: it never executes and never consumes a capability. -/
theorem replay_semantics {w₀ w w' : World ι} {es : List (Event ι)} {session : ι}
    {input : ExecuteActionInput} {reads : CallReads} {capability : Capability}
    {record : OperationRecord} (h₀ : w₀.Fresh)
    (hrun : Transition.run World.step w₀ es = some w)
    (hrecord : w.recordOf session input.operation.idempotencyKey = some record)
    (hguards : PassesGuards input reads.now capability)
    (hparams : isPlainJson input.params = true)
    (hstep : w.step (.start session input reads) = some w') :
    ∃ payloadHash, hashCanonical input.params = .ok payloadHash ∧
      w.Replays w' session input record payloadHash := by
  obtain ⟨hbooked, hprovenance⟩ := Provenance.run h₀ hrun
  -- plain JSON hashes, so the call gets past its hash to the table
  obtain ⟨canonical, hcanonical⟩ := hashable_of_isPlainJson input.params hparams
  have hhash : hashCanonical input.params = .ok (sha256Hex (stringify canonical)) := by
    rw [hashCanonical, hcanonical, Except.map]
  refine ⟨_, hhash, ?_⟩
  rcases step_cases hstep with _ | ⟨_, _, _, shared, progress, houtcome⟩ | _
  have hguarded := houtcome.guarded hguards hhash
  rw [show (w.shared session).operationStore.byIdempotencyKey input.operation.idempotencyKey =
    some record from hrecord] at hguarded
  cases hguarded with
  | conflict _ entry hpayload =>
    exact {
      registry_eq := rfl
      conflict := fun _ => ⟨⟨[entry], rfl⟩, fun _ _ hrun => invocationsOf_done hbooked hrun⟩
      succeeded := fun heq => absurd heq hpayload
      failed := fun heq => absurd heq hpayload
      unknownOutcome := fun heq => absurd heq hpayload }
  | replayed _ entry heq hstate =>
    exact {
      registry_eq := rfl
      conflict := fun hne => absurd heq hne
      succeeded := fun _ _ => ⟨⟨[entry], rfl⟩, fun _ _ hrun => invocationsOf_done hbooked hrun⟩
      failed := fun _ hfailed => by cases hstate.symm.trans hfailed
      unknownOutcome := fun _ hunknown => by cases hstate.symm.trans hunknown }
  | replayedFailure _ heq hstate =>
    -- a record of a failure carries its message
    obtain ⟨errorMessage, hmessage⟩ :=
      Option.isSome_iff_exists.mp ((hprovenance.wellFormed _ _ _ hrecord).failed hstate)
    exact {
      registry_eq := rfl
      conflict := fun hne => absurd heq hne
      succeeded := fun _ hsucceeded => by cases hstate.symm.trans hsucceeded
      failed := fun _ _ => ⟨⟨errorMessage, hmessage, by simp [hmessage, progressTrace]⟩,
        fun _ _ hrun => invocationsOf_done hbooked hrun⟩
      unknownOutcome := fun _ hunknown => by cases hstate.symm.trans hunknown }
  | lookingUp _ heq hnotReplayed hnotFailed =>
    -- only an unknown outcome is left: a success on record has its receipt
    exact {
      registry_eq := rfl
      conflict := fun hne => absurd heq hne
      succeeded := fun _ hsucceeded => absurd
        ⟨hsucceeded, ((hprovenance.wellFormed _ _ _ hrecord).succeeded hsucceeded).1⟩ hnotReplayed
      failed := fun _ hfailed => absurd hfailed hnotFailed
      unknownOutcome := by
        intro _ _ es w'' hrun
        obtain ⟨hinvocations, hreconciling⟩ := lookingUp_run hbooked hrun
        exact ⟨hinvocations, hreconciling, hreconciling.answer⟩ }

end

/-! ## A run on Node -/

section
attribute [local instance] node
open Sample

/-- The first call's success is recorded. -/
def firstRecorded : World Unit := after {} (sequentialCalls.take 4) (by decide +kernel)

/-- The arguments of the second call. -/
def secondInput : ExecuteActionInput :=
  makeInput (makeCapability makeRequest "cap_000002" "nonce_000002") makeRequest "op_2" "key-1"

/-- The second call is answered from the record. -/
theorem secondInput_replays :
    ∃ payloadHash, hashCanonical secondInput.params = .ok payloadHash ∧
      firstRecorded.Replays
        ((firstRecorded.step (.start () secondInput (reads "evt_000003"))).get
          (by decide +kernel)) () secondInput
        ((firstRecorded.recordOf () (js "key-1")).get (by decide +kernel)) payloadHash :=
  replay_semantics ⟨fun _ => rfl, fun _ => rfl, rfl⟩ (run_after _ _ _)
    (Option.some_get _).symm (by constructor <;> rfl) (by decide +kernel) (Option.some_get _).symm

end

end World

end ActionHarbor
