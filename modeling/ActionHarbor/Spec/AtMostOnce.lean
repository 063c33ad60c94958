import ActionHarbor.Spec.WorldSteps

/-!
# At-most-once execution

`executeAction` reads the operation store before its `await` and writes it after,
so two calls in flight with one idempotency key both find the key new. The
results here say exactly when `adapter.execute` is invoked at most once per key:
when no call is admitted while an earlier execution under its key has left no
record.

## Key results

- `executing_iff`: when the synchronous part of a call invokes `adapter.execute`
- `World.Resolved.step`: every execution is in flight, recorded, or crashed
- `World.executedKeys_nodup_iff`: at most once, exactly in the runs that admit
  calls one at a time
-/

namespace ActionHarbor

section
variable [Host]

/-! ## Admission -/

/-- A call is admitted with this capability: it passes its guards, its key is new, the
    registry consumes the capability and the gateway's own check accepts it. -/
def AdmittedWith (shared : Shared) (input : ExecuteActionInput) (reads : CallReads)
    (capability : Capability) : Prop :=
  ∃ payloadHash registry,
    PassesGuards input reads.now capability ∧
    hashCanonical input.params = .ok payloadHash ∧
    shared.operationStore.byIdempotencyKey input.operation.idempotencyKey = none ∧
    shared.registry.consume capability.id capability.nonce = .ok registry ∧
    validateCapability capability input.request reads.gatewayNow = .ok ()

/-- A call is admitted. -/
def Admits (shared : Shared) (input : ExecuteActionInput) (reads : CallReads) : Prop :=
  ∃ capability, AdmittedWith shared input reads capability

/-- The gateway calls the adapter exactly when its own check accepts. -/
theorem invokeAdapter_eq_executing {call call' : RacingCall} {now : Instant} :
    invokeAdapter call now = .executing call' ↔
      validateCapability call.capability call.input.request now = .ok () ∧ call = call' := by
  rw [invokeAdapter]
  split <;> rename_i h <;> simp [h]

/-- A call that reaches the adapter was admitted with the capability it passes on. -/
theorem StartOutcome.admittedWith {shared shared' : Shared} {input : ExecuteActionInput}
    {reads : CallReads} {call : RacingCall}
    (h : StartOutcome shared input reads shared' (.waiting (.executing call))) :
    AdmittedWith shared input reads call.capability := by
  generalize hprogress : CallProgress.waiting (.executing call) = progress at h
  cases h with
  | entered capability payloadHash registry entry hguards hhash hnew hconsume =>
    obtain ⟨hcheck, rfl⟩ := invokeAdapter_eq_executing.mp (CallProgress.waiting.inj hprogress).symm
    exact ⟨payloadHash, registry, hguards, hhash, hnew, hconsume, hcheck⟩
  | _ => cases hprogress

/-- An admitted call reaches the adapter. -/
theorem StartOutcome.executing_of_admittedWith {shared shared' : Shared}
    {input : ExecuteActionInput} {reads : CallReads} {progress : CallProgress}
    {capability : Capability} (h : StartOutcome shared input reads shared' progress)
    (hadmitted : AdmittedWith shared input reads capability) :
    ∃ call, progress = .waiting (.executing call) ∧ call.input = input ∧
      call.capability = capability := by
  obtain ⟨payloadHash, registry, hguards, hhash, hnew, hconsume, hcheck⟩ := hadmitted
  obtain ⟨entry, -, rfl⟩ := h.entered_of_consume hguards hhash hnew hconsume
  exact ⟨_, congrArg _ (invokeAdapter_eq_executing.mpr ⟨hcheck, rfl⟩), rfl, rfl⟩

/-- When the synchronous part of a call invokes `adapter.execute`, and with which
    capability. -/
theorem executing_iff (shared : Shared) (input : ExecuteActionInput) (reads : CallReads)
    (capability : Capability) :
    (∃ call, (executeAction shared input reads).2 = .waiting (.executing call) ∧
      call.capability = capability) ↔ AdmittedWith shared input reads capability := by
  have hcases := executeAction_cases shared input reads
  constructor
  · rintro ⟨call, hcall, rfl⟩
    rw [hcall] at hcases
    exact hcases.admittedWith
  · intro hadmitted
    obtain ⟨call, hcall, -, hcapability⟩ := hcases.executing_of_admittedWith hadmitted
    exact ⟨call, hcall, hcapability⟩

end

variable {ι : Type} [DecidableEq ι]

/-! ## Executed keys -/

/-- The idempotency key of an `adapter.execute` in this session. -/
def Observation.executedKey (session : ι) : Observation ι → Option JsString
  | .executeInvoked _ session' operation _ _ =>
    if session' = session then some operation.idempotencyKey else none
  | _ => none

namespace World

/-- The keys `adapter.execute` has been invoked with in a session, oldest first. -/
def executedKeys (w : World ι) (session : ι) : List JsString :=
  w.trace.filterMap (Observation.executedKey session)

/-- An execution under the key has left no record: its call is still in flight, or
    ended on a rejection that `String` cannot print. -/
def Unresolved (w : World ι) (session : ι) (key : JsString) : Prop :=
  ∃ c operation capability params,
    .executeInvoked c session operation capability params ∈ w.trace ∧
    operation.idempotencyKey = key ∧
    (w.pending c ≠ none ∨ .settled c (.threw .unprintableRejection) ∈ w.trace)

/-- A key was executed when an invocation with it is in the trace. -/
theorem mem_executedKeys {w : World ι} {session : ι} {key : JsString} :
    key ∈ w.executedKeys session ↔ ∃ c operation capability params,
      .executeInvoked c session operation capability params ∈ w.trace ∧
      operation.idempotencyKey = key := by
  rw [executedKeys, List.mem_filterMap]
  constructor
  · rintro ⟨o, ho, hkey⟩
    cases o with
    | executeInvoked c session' operation capability params =>
      simp only [Observation.executedKey, Option.ite_none_right_eq_some, Option.some.injEq] at hkey
      obtain ⟨rfl, rfl⟩ := hkey
      exact ⟨c, operation, capability, params, ho, rfl⟩
    | _ => cases hkey
  · rintro ⟨c, operation, capability, params, ho, rfl⟩
    exact ⟨_, ho, by simp [Observation.executedKey]⟩

/-- A call that enters to execute adds its key. -/
private theorem executedKeys_enter_executing (w : World ι) (session : ι)
    (input : ExecuteActionInput) (call : RacingCall) :
    (w.enter session input (.waiting (.executing call))).executedKeys session =
      w.executedKeys session ++ [call.input.operation.idempotencyKey] := by
  simp [executedKeys, List.filterMap_cons, Observation.executedKey, progressTrace, invocation]

/-! ## The invariant -/

/-- Every execution is in flight, has crashed, or has left a record under its key. -/
def Resolved (w : World ι) : Prop :=
  ∀ c session operation capability params,
    .executeInvoked c session operation capability params ∈ w.trace →
    (∃ call, w.pending c = some (session, .executing call) ∧ call.input.operation = operation) ∨
    .settled c (.threw .unprintableRejection) ∈ w.trace ∨
    w.recordOf session operation.idempotencyKey ≠ none

omit [DecidableEq ι] in
theorem Fresh.resolved {w : World ι} (h : w.Fresh) : w.Resolved := by
  intro c session operation capability params hinvoked
  rw [h.trace] at hinvoked
  cases hinvoked

/-- A key that was executed and is not unresolved has a record. -/
theorem Resolved.recordOf_ne_none {w : World ι} (h : w.Resolved) {session : ι} {key : JsString}
    (hkey : key ∈ w.executedKeys session) (hresolved : ¬ w.Unresolved session key) :
    w.recordOf session key ≠ none := by
  obtain ⟨c, operation, capability, params, hinvoked, rfl⟩ := mem_executedKeys.mp hkey
  rcases h c session operation capability params hinvoked with
    ⟨call, hpending, -⟩ | hcrashed | hrecord
  · exact absurd ⟨c, operation, capability, params, hinvoked, rfl, .inl (by simp [hpending])⟩
      hresolved
  · exact absurd ⟨c, operation, capability, params, hinvoked, rfl, .inr hcrashed⟩ hresolved
  · exact hrecord

section
variable [Host]

/-- No call is admitted while an execution under its key has left no record. -/
def AdmittedAlone (w : World ι) : Event ι → Prop
  | .start session input reads =>
    Admits (w.shared session) input reads →
      ¬ w.Unresolved session input.operation.idempotencyKey
  | _ => True

/-- A step adds the key of an admitted call, and nothing else. -/
theorem StepCases.executedKeys_cases {w w' : World ι} {e : Event ι} (h : w.StepCases e w')
    (session : ι) :
    w'.executedKeys session = w.executedKeys session ∨
    ∃ input reads, e = .start session input reads ∧ Admits (w.shared session) input reads ∧
      w'.executedKeys session = w.executedKeys session ++ [input.operation.idempotencyKey] := by
  cases h with
  | recorded => simp [executedKeys, Observation.executedKey]
  | woke => simp [executedKeys, Observation.executedKey]
  | started session' input reads shared progress houtcome =>
    cases progress with
    | done settled => simp [executedKeys, Observation.executedKey, progressTrace]
    | waiting waiting =>
      cases waiting with
      | refused _ _ | lookingUp _ =>
        simp [executedKeys, Observation.executedKey, progressTrace, invocation]
      | executing call =>
        -- the only observation that counts
        by_cases hs : session' = session
        · subst hs
          obtain rfl : call.input = input := houtcome.waiting_input
          exact .inr ⟨call.input, reads, rfl, ⟨_, houtcome.admittedWith⟩,
            executedKeys_enter_executing _ session' call.input call⟩
        · simp [executedKeys, Observation.executedKey, progressTrace, invocation, hs]

/-- An invocation is in the trace before a step, or the step made it. -/
private theorem StepCases.executeInvoked_cases {w w' : World ι} {e : Event ι}
    (h : w.StepCases e w') {c : CallId} {session : ι} {operation : AdapterOperation}
    {capability : Capability} {params : JsValue}
    (hinvoked : .executeInvoked c session operation capability params ∈ w'.trace) :
    .executeInvoked c session operation capability params ∈ w.trace ∨
    ∃ call, w'.pending c = some (session, .executing call) ∧ call.input.operation = operation := by
  cases h with
  | recorded => exact .inl (by simpa using hinvoked)
  | woke => exact .inl (by simpa using hinvoked)
  | started session' input reads shared progress houtcome =>
    simp only [enter_trace, setShared_trace, setShared_nextCall, List.mem_append,
      List.mem_cons] at hinvoked
    rcases hinvoked with hold | hnew | hnew
    · exact .inl hold
    · cases hnew
    · cases progress with
      | done settled => simp [progressTrace] at hnew
      | waiting waiting =>
        -- only a call that races has reached the adapter
        cases waiting with
        | refused _ _ | lookingUp _ => simp [progressTrace, invocation] at hnew
        | executing call =>
          simp only [progressTrace, invocation, List.mem_singleton,
            Observation.executeInvoked.injEq] at hnew
          obtain ⟨rfl, rfl, rfl, rfl, rfl⟩ := hnew
          exact .inr ⟨call, by simp [enter], rfl⟩

/-- Every step keeps every execution accounted for. -/
theorem Resolved.step {w w' : World ι} {e : Event ι} (hresolved : w.Resolved)
    (hbooked : w.Booked) (h : w.StepCases e w') : w'.Resolved := by
  intro c session operation capability params hinvoked
  rcases h.executeInvoked_cases hinvoked with hold | hnew
  case inr => exact .inl hnew
  rcases hresolved c session operation capability params hold with
    ⟨call, hpending, hoperation⟩ | hcrashed | hrecord
  case inr.inl => exact .inr (.inl (h.trace_extends.subset hcrashed))
  case inr.inr => exact .inr (.inr (h.recordOf_persists hrecord))
  -- the call was in flight: only its own wakeup moves it
  have hlt := hbooked.pending_lt c session _ hpending
  cases h with
  | recorded => exact .inl ⟨call, hpending, hoperation⟩
  | started session' input reads shared progress houtcome =>
    refine .inl ⟨call, ?_, hoperation⟩
    cases progress with
    | done settled => exact hpending
    | waiting waiting => simpa [enter, Function.update_of_ne (Nat.ne_of_lt hlt)] using hpending
  | woke c' wakeup stamp session' waiting shared settled hpending' hsettlement =>
    by_cases hc : c = c'
    · subst hc
      obtain ⟨rfl, rfl⟩ := Prod.mk.inj (Option.some.inj (hpending.symm.trans hpending'))
      rcases hsettlement.operationStore_cases with ⟨record, hstore, hwritten⟩ | ⟨-, hcrashed⟩
      · refine .inr (.inr ?_)
        have hkey : record.idempotencyKey = operation.idempotencyKey := by
          rw [hwritten.idempotencyKey_eq, ← hoperation]; rfl
        simp [recordOf, hstore, OperationStore.record, hkey]
      · rcases hcrashed with hlookup | rfl
        · cases hlookup
        · exact .inr (.inl (by simp))
    · exact .inl ⟨call, by simpa [Function.update_of_ne hc] using hpending, hoperation⟩

/-- Admitting one call at a time keeps the executed keys distinct. -/
private theorem executedKeys_nodup_step {w w' : World ι} {e : Event ι}
    (hnodup : ∀ session, (w.executedKeys session).Nodup) (hresolved : w.Resolved)
    (halone : w.AdmittedAlone e) (h : w.StepCases e w') (session : ι) :
    (w'.executedKeys session).Nodup := by
  rcases h.executedKeys_cases session with heq | ⟨input, reads, rfl, hadmits, heq⟩
  · rw [heq]
    exact hnodup session
  · rw [heq]
    have hnew : (w.stores session).byIdempotencyKey input.operation.idempotencyKey = none := by
      obtain ⟨_, _, _, -, -, hnew, -⟩ := hadmits
      exact hnew
    have hfresh : input.operation.idempotencyKey ∉ w.executedKeys session := fun hmem =>
      hresolved.recordOf_ne_none hmem (halone hadmits) hnew
    exact (hnodup session).append (List.nodup_singleton _) (by simpa using hfresh)

/-- The executed keys of a state are a prefix of those of every later state. -/
theorem executedKeys_extends {w w' : World ι} {es : List (Event ι)}
    (hrun : Transition.run step w es = some w') (session : ι) :
    w.executedKeys session <+: w'.executedKeys session :=
  Transition.run_rel (R := fun w w' => w.executedKeys session <+: w'.executedKeys session)
    (fun _ => List.prefix_rfl) (fun _ _ _ => List.IsPrefix.trans)
    (fun _ _ _ h => (step_cases h).trace_extends.filterMap _) hrun

/-- From an empty store, `adapter.execute` is invoked at most once per idempotency
    key exactly in the runs that admit no call while an execution under its key has
    left no record. -/
theorem executedKeys_nodup_iff {w₀ w : World ι} {es : List (Event ι)} (h₀ : w₀.Fresh)
    (hrun : Transition.run step w₀ es = some w) :
    (∀ session, (w.executedKeys session).Nodup) ↔ Transition.Meets step AdmittedAlone w₀ es := by
  constructor
  · intro hnodup
    refine Transition.Meets.of_forall_step fun pre e post m hes hpre => ?_
    subst hes
    cases e with
    | record _ | wake _ _ _ => trivial
    | start session input reads =>
      rintro ⟨_, hadmitted⟩ ⟨c, operation, capability, params, hinvoked, hkey, -⟩
      -- the step repeats a key of the trace, and no later step takes it back
      obtain ⟨m', hm', hpost⟩ := Transition.run_append_eq_some.mp hrun
      obtain rfl := Option.some.inj (hpre.symm.trans hm')
      obtain ⟨m'', hstep, hrest⟩ := Transition.run_cons_eq_some.mp hpost
      have hmem : input.operation.idempotencyKey ∈ m.executedKeys session :=
        mem_executedKeys.mpr ⟨c, operation, capability, params, hinvoked, hkey⟩
      have hm'' : (m''.executedKeys session).Nodup :=
        (hnodup session).sublist (executedKeys_extends hrest session).sublist
      rcases step_cases hstep with _ | ⟨_, _, _, shared, progress, houtcome⟩ | _
      obtain ⟨call, rfl, rfl, -⟩ := houtcome.executing_of_admittedWith hadmitted
      rw [executedKeys_enter_executing] at hm''
      exact (List.nodup_append.mp hm'').2.2 _ hmem _ (List.mem_singleton_self _) rfl
  · intro hmeets
    have hkept : ∀ (s : World ι) e s',
        s.Booked ∧ s.Resolved ∧ (∀ session, (s.executedKeys session).Nodup) →
        s.AdmittedAlone e → s.step e = some s' →
        s'.Booked ∧ s'.Resolved ∧ ∀ session, (s'.executedKeys session).Nodup := by
      rintro s e s' ⟨hbooked, hresolved, hnodup⟩ halone hstep
      have h := step_cases hstep
      exact ⟨hbooked.step h, hresolved.step hbooked h,
        executedKeys_nodup_step hnodup hresolved halone h⟩
    have hempty : ∀ session, (w₀.executedKeys session).Nodup := fun session => by
      simp [executedKeys, h₀.trace]
    exact (Transition.run_invariant_of_meets hkept ⟨h₀.booked, h₀.resolved, hempty⟩ hmeets
      hrun).2.2

end

/-! ## Runs on Node -/

section
attribute [local instance] node
open Sample

/-- Two calls with one key and a capability each: the second starts while the first
    awaits its adapter. -/
def overlappingCalls : List (Event Unit) :=
  let first := makeCapability makeRequest "cap_000001" "nonce_000001"
  let second := makeCapability makeRequest "cap_000002" "nonce_000002"
  [.record first, .record second,
    .start () (makeInput first makeRequest "op_1" "key-1") (reads "evt_000001"),
    .start () (makeInput second makeRequest "op_1" "key-1") (reads "evt_000002")]

/-- Both overlapping calls invoke `adapter.execute` under the one key. -/
theorem overlappingCalls_execute_twice : ∃ w : World Unit,
    Transition.run step {} overlappingCalls = some w ∧
    w.executedKeys () = [js "key-1", js "key-1"] ∧ ¬ (w.executedKeys ()).Nodup := by
  refine ⟨after {} overlappingCalls (by decide +kernel), run_after _ _ _, ?_, ?_⟩ <;>
    decide +kernel

/-- The second call replays the first one's success, so it was not admitted early. -/
theorem sequentialCalls_admitted_alone :
    Transition.Meets step AdmittedAlone ({} : World Unit) sequentialCalls :=
  (executedKeys_nodup_iff ⟨fun _ => rfl, fun _ => rfl, rfl⟩ run_sequentialCalls).mp
    fun | () => by decide +kernel

end

end World

end ActionHarbor
