import ActionHarbor.Spec.LegalTransitions
import ActionHarbor.Spec.RegistryReads

/-!
# What a later call of a run finds

A replay and a reconciliation make the call of the first execution again. In every
reachable state, lookups made twice included, that call is judged as the first one
was: it passes the same guards but for the expiry of the capability, and finds a
record with the hash of its params.

## Key results

- `RunSystem.Receipted.step`: the adapter of a run holds receipts of its plan alone
- `RunSystem.Resumable.step`: one step of a run keeps what its next call relies on
- `Server.run_wellkept`: both hold of every run in every reachable state
- `executeForRun_expired`, `executeForRun_replayed`, `executeForRun_lookingUp`: how the
  next call goes
-/

namespace ActionHarbor

section
variable [Host]

/-! ## Receipts -/

/-- The adapter of a run and its promises are about the run's own plan. -/
structure RunSystem.Receipted (sys : RunSystem) : Prop where
  receipts : sys.run.adapter.inner.AcceptedBy sys.run.toRunPlan
  promises : ∀ c promise, sys.promises c = some promise → promise.Own sys.run.toRunPlan

/-- Write one request back on a run that keeps its plan. -/
theorem RunSystem.Receipted.change {sys : RunSystem} (h : sys.Receipted) {run : RunRecord}
    {c : RequestId} {stage : Option RequestStage} {promise : Option AdapterPromise}
    {observations : List RunObservation} (hplan : run.toRunPlan = sys.run.toRunPlan)
    (hreceipts : run.adapter.inner.AcceptedBy run.toRunPlan)
    (hpromise : ∀ promise', promise = some promise' → promise'.Own run.toRunPlan) :
    (sys.change run c stage promise observations).Receipted where
  receipts := hreceipts
  promises c' promise' hpromise' := by
    by_cases hc : c' = c
    · subst hc
      exact hpromise promise' (by simpa using hpromise')
    · show promise'.Own run.toRunPlan
      rw [hplan]
      exact h.promises c' promise' (by simpa [hc] using hpromise')

/-- A call is promised what its own plan leads to. -/
theorem CallStage.own {run : RunRecord} {capability : Capability} {reads : CallReads}
    {stage : Option RequestStage} {promise : Option AdapterPromise}
    (h : CallStage run capability reads stage promise)
    (hreceipts : run.adapter.inner.AcceptedBy run.toRunPlan) :
    ∀ promise', promise = some promise' → promise'.Own run.toRunPlan := by
  cases h with
  | unwired | inert | stale => exact fun _ h => by cases h
  | lookingUp postcondition prior =>
    intro promise' hpromise'
    obtain rfl := Option.some.inj hpromise'
    exact hreceipts.lookup prior.operationId
  | entered _ _ _ _ _ _ _ _ hpromise => exact hpromise

/-- A later call keeps this. -/
private theorem RunSystem.Receipted.again {sys : RunSystem} (h : sys.Receipted) (c : RequestId)
    (registry : CapabilityRegistry) (capability : Capability) (reads : CallReads) :
    (sys.enter c (executeForRun registry sys.run capability reads)).Receipted := by
  have hfacts := executeForRun_facts registry sys.run capability reads
  have hown := (executeForRun_stage registry sys.run capability reads).own h.receipts
  generalize executeForRun registry sys.run capability reads = turn at hfacts hown
  refine h.change hfacts.same.plan ?_ fun promise hpromise => ?_
  · rw [hfacts.inner, hfacts.same.plan]
    exact h.receipts
  · rw [hfacts.same.plan]
    exact hown promise hpromise

/-- So does the first one. -/
private theorem RunSystem.Receipted.first {sys : RunSystem} (h : sys.Receipted) (run : RunRecord)
    (hplan : run.toRunPlan = sys.run.toRunPlan)
    (hreceipts : run.adapter.inner.AcceptedBy run.toRunPlan) (c : RequestId)
    (registry : CapabilityRegistry) (evidence : AuthorizationEvidence) (draw : AuthorizeDraw) :
    (sys.enter c (authorizeAndExecute registry run evidence draw)).Receipted := by
  have hfacts := authorizeAndExecute_facts registry run evidence draw
  have hcase := authorizeAndExecute_cases registry run evidence draw
  generalize authorizeAndExecute registry run evidence draw = turn at hfacts hcase
  refine h.change (hfacts.same.plan.trans hplan) ?_ fun promise hpromise => ?_
  · rw [hfacts.inner, hfacts.same.plan]
    exact hreceipts
  · rw [hfacts.same.plan]
    cases hcase with
    | unminted => cases hpromise
    | minted capability entry hmint hminted =>
      exact (executeForRun_stage (registry.record capability)
        { run.appendRows [entry] with capability := some capability } capability draw.reads).own
        hreceipts promise hpromise

/-- A new run has an adapter without receipts. -/
theorem RunSystem.Receipted.born {model : ModelAdapter} {sys : RunSystem} (h : Born model sys) :
    sys.Receipted := by
  cases h with
  | created scenarioId draw registry run c hnew =>
    have hrun := proposeRun_eq_ok hnew
    have hempty : RunSystem.Receipted { run := run } := by
      refine ⟨?_, fun _ _ h => by cases h⟩
      show run.adapter.inner.AcceptedBy run.toRunPlan
      rw [hrun.adapter]
      exact FakeAdapter.acceptedBy_empty _
    have hcase := followVerdict_cases registry draw.authorize hrun.state
    generalize followVerdict registry run draw.authorize = turn at hcase
    cases hcase with
    | denied | parked => exact hempty.change rfl hempty.receipts fun _ h => by cases h
    | allowed houtcome =>
      exact hempty.first { run with state := .authorized } rfl hempty.receipts c registry _
        draw.authorize

/-- One step of a run leaves receipts of its own plan alone. -/
theorem RunSystem.Receipted.step {C : RunSystem → CallReads → Prop} {sys sys' : RunSystem}
    (h : sys.Receipted) (hpinned : sys.run.Pinned) (hstep : RunStep C sys sys') :
    sys'.Receipted := by
  cases hstep with
  | refused => exact h.change rfl h.receipts fun _ h => by cases h
  | approved c registry draw turn hunused hturn =>
    cases approveRun_cases hpinned hturn with
    | approved consumed row hstate happroves hrow =>
      exact h.first { sys.run.appendRows [row] with
          approval := some consumed
          state := .authorized
          lastActionAt := Host.toISOString draw.lastActionAt } rfl h.receipts c registry _
        draw.authorize
  | replayed c registry reads turn hunused hturn =>
    obtain ⟨-, capability, -, rfl⟩ := replayRun_eq_ok hturn
    exact h.again c registry capability reads
  | reconciled c registry reads turn hunused hreads hturn =>
    obtain ⟨-, capability, -, rfl⟩ := reconcileRun_eq_ok hturn
    exact h.again c registry capability reads
  | drifted c now run hunused hdrift =>
    obtain ⟨-, rfl⟩ := simulateDrift_eq_ok hdrift
    exact h.change rfl h.receipts fun _ h => by cases h
  | checked c stamp run result hunused hverify =>
    obtain ⟨row, -, rfl⟩ := verifyRunLedger_eq_ok hverify
    exact h.change rfl h.receipts fun _ h => by cases h
  | executed c operation capability params draw adapter outcome hpromise hexecute =>
    obtain ⟨rfl, htype, rfl⟩ := h.promises c _ hpromise
    refine h.change rfl ?_ fun promise hnew => ?_
    -- the inner `execute` runs with the plan's own key and parameters
    · exact h.receipts.counted htype hexecute
    · obtain rfl := Option.some.inj hnew
      trivial
  | woke c waiting wakeup registry stamp shared settled hrequest hwakes hresume =>
    exact h.change rfl h.receipts (h.promises c)
  | resumed c settled now run outcome hrequest hfinish =>
    cases finishExecution_cases hfinish with
    | threw | illegal | finished => exact h.change rfl h.receipts (h.promises c)

/-! ## The grounds a call is judged on -/

omit [Host] in
/-- Two runs whose calls are judged alike. -/
structure SameGrounds (run run' : RunRecord) : Prop where
  plan : run'.toRunPlan = run.toRunPlan
  capability : run'.capability = run.capability
  resourceVersionAtProposal : run'.resourceVersionAtProposal = run.resourceVersionAtProposal
  resourceVersionNow : run'.resourceVersionNow = run.resourceVersionNow

/-- A call of the run has passed its guards with the capability the run has, and this is
    the hash of its params. -/
structure RunRecord.Admitted (run : RunRecord) (payloadHash : JsString) : Prop where
  guards : ∃ capability postcondition now, run.capability = some capability ∧
    run.postcondition = some postcondition ∧
    PassesGuards (run.callInput capability postcondition) now capability
  hash : hashCanonical run.parameters.toJsValue = .ok payloadHash

omit [Host] in
/-- The outcome on record is unknown, and about the run's own operation. -/
def RunRecord.Unknown (run : RunRecord) : Prop :=
  ∃ operation, run.Recorded operation ∧ operation.state = .unknownOutcome ∧
    operation.operationId = run.operationId

omit [Host] in
theorem SameGrounds.callInput {run run' : RunRecord} (h : SameGrounds run run')
    (capability : Capability) (postcondition : PostconditionExpectation) :
    run'.callInput capability postcondition = run.callInput capability postcondition := by
  simp only [RunRecord.callInput, RunRecord.precondition, h.plan, h.resourceVersionAtProposal,
    h.resourceVersionNow]

omit [Host] in
theorem SameGrounds.trans {run₁ run₂ run₃ : RunRecord} (h : SameGrounds run₁ run₂)
    (h' : SameGrounds run₂ run₃) : SameGrounds run₁ run₃ where
  plan := h'.plan.trans h.plan
  capability := h'.capability.trans h.capability
  resourceVersionAtProposal := h'.resourceVersionAtProposal.trans h.resourceVersionAtProposal
  resourceVersionNow := h'.resourceVersionNow.trans h.resourceVersionNow

theorem RunRecord.Admitted.mono {run run' : RunRecord} {payloadHash : JsString}
    (h : run.Admitted payloadHash) (hgrounds : SameGrounds run run') :
    run'.Admitted payloadHash where
  guards := by
    obtain ⟨capability, postcondition, now, hcapability, hpost, hguards⟩ := h.guards
    refine ⟨capability, postcondition, now, hgrounds.capability.trans hcapability, ?_, ?_⟩
    · rw [hgrounds.plan]
      exact hpost
    · rw [hgrounds.callInput]
      exact hguards
  hash := by
    rw [hgrounds.plan]
    exact h.hash

/-! ## The invariant -/

omit [Host] in
/-- The call ended with a receipt. -/
def Settled.Succeeds : Settled → Prop
  | .returned (.ok _ _ _ _ _) => True
  | _ => False

omit [Host] in
/-- The call timed out. -/
def Settled.TimesOut : Settled → Prop
  | .returned (.unknownOutcome _ _) => True
  | _ => False

omit [Host] in
/-- The call has found the receipt of an unknown outcome. -/
def Settled.Reconciles : Settled → Prop
  | .returned (.ok _ _ _ reasonCode _) => reasonCode = some .reconciledSuccess
  | _ => False

/-- A waiting call is the run's own and was admitted; unless it reconciles, it is the
    first one. -/
structure Waiting.Fits (run : RunRecord) (waiting : Waiting) : Prop where
  admitted : run.Admitted waiting.payloadHash
  request : waiting.input.request = run.request
  postcondition : run.postcondition = some waiting.input.postcondition
  first : waiting.reconciles = false → run.state = .authorized

omit [Host] in
/-- What a settled call says is on record; and only the first call times out. -/
structure Settled.Fits (run : RunRecord) (settled : Settled) : Prop where
  succeeded : settled.Succeeds → run.Succeeded
  unknown : settled.TimesOut → run.state = .authorized ∧ run.Unknown

/-- The request fits what is on record of its run. -/
def RequestStage.Fits (run : RunRecord) : RequestStage → Prop
  | .waiting call => call.Fits run
  | .settled outcome => outcome.Fits run

/-- What the next call of a run relies on. -/
structure RunSystem.Resumable (sys : RunSystem) : Prop where
  recorded : ∀ operation, sys.run.Recorded operation → sys.run.Admitted operation.payloadHash
  requests : ∀ c stage, sys.requests c = some stage → stage.Fits sys.run
  /-- the first call is alone -/
  first : sys.run.state = .authorized → ∀ c c' stage stage', sys.requests c = some stage →
    sys.requests c' = some stage' → c = c'
  verified : sys.run.state = .verified → sys.run.Succeeded
  /-- an unknown outcome is on record until a call has found its receipt -/
  unknown : sys.run.state = .unknownOutcome → sys.run.Unknown ∨
    ∃ c settled, sys.requests c = some (.settled settled) ∧ settled.Reconciles

omit [Host] in
/-- What is on record, in two runs with one store. -/
theorem SameGrounds.recorded {run run' : RunRecord} (hgrounds : SameGrounds run run')
    (hstore : run'.operationStore = run.operationStore) (operation : OperationRecord) :
    run'.Recorded operation ↔ run.Recorded operation := by
  rw [RunRecord.Recorded, RunRecord.Recorded, hstore, hgrounds.plan]

omit [Host] in
theorem RunRecord.Succeeded.mono {run run' : RunRecord} (h : run.Succeeded)
    (hgrounds : SameGrounds run run') (hstore : run'.operationStore = run.operationStore) :
    run'.Succeeded := by
  obtain ⟨operation, hoperation, hsucceeded⟩ := h
  exact ⟨operation, (hgrounds.recorded hstore operation).mpr hoperation, hsucceeded⟩

omit [Host] in
theorem RunRecord.Unknown.mono {run run' : RunRecord} (h : run.Unknown)
    (hgrounds : SameGrounds run run') (hstore : run'.operationStore = run.operationStore) :
    run'.Unknown := by
  obtain ⟨operation, hoperation, hunknown, hid⟩ := h
  refine ⟨operation, (hgrounds.recorded hstore operation).mpr hoperation, hunknown, ?_⟩
  rw [hgrounds.plan]
  exact hid

/-- A request keeps fitting a run of the same grounds, as long as the first call finds its
    state and the store keeps what was returned. -/
theorem RequestStage.Fits.mono {run run' : RunRecord} {stage : RequestStage}
    (h : stage.Fits run) (hgrounds : SameGrounds run run')
    (hstate : run.state = .authorized → run'.state = .authorized)
    (hsucceeded : run.Succeeded → run'.Succeeded)
    (hunknown : run.state = .authorized → run.Unknown → run'.Unknown) : stage.Fits run' := by
  cases stage with
  | waiting call =>
    refine ⟨h.admitted.mono hgrounds, ?_, ?_, fun hfirst => hstate (h.first hfirst)⟩
    · rw [hgrounds.plan]
      exact h.request
    · rw [hgrounds.plan]
      exact h.postcondition
  | settled outcome =>
    refine ⟨fun hsucceeds => hsucceeded (h.succeeded hsucceeds), fun htimesOut => ?_⟩
    obtain ⟨hauthorized, hunknown'⟩ := h.unknown htimesOut
    exact ⟨hstate hauthorized, hunknown hauthorized hunknown'⟩

/-- Other requests than the one a step is about keep fitting, whatever the state: the
    first call has no others beside it. -/
theorem RunSystem.Resumable.others {sys : RunSystem} (h : sys.Resumable) {c c' : RequestId}
    {stage stage' : RequestStage} {run : RunRecord} (hrequest : sys.requests c = some stage)
    (hrequest' : sys.requests c' = some stage') (hne : c' ≠ c)
    (hgrounds : SameGrounds sys.run run) (hsucceeded : sys.run.Succeeded → run.Succeeded) :
    stage'.Fits run := by
  have hauthorized : sys.run.state ≠ .authorized := fun hstate =>
    hne (h.first hstate c' c stage' stage hrequest' hrequest)
  exact (h.requests c' stage' hrequest').mono hgrounds (absurd · hauthorized) hsucceeded
    (absurd · hauthorized)

/-- A request without another beside it, on a run with nothing on record. -/
theorem RunSystem.Resumable.alone {sys : RunSystem} {run : RunRecord} {c : RequestId}
    {stage : Option RequestStage} {promise : Option AdapterPromise}
    {observations : List RunObservation} (hnone : ∀ c', c' ≠ c → sys.requests c' = none)
    (hstage : ∀ stage', stage = some stage' → stage'.Fits run)
    (hrecorded : ∀ operation, run.Recorded operation → run.Admitted operation.payloadHash)
    (hverified : run.state = .verified → run.Succeeded)
    (hunknown : run.state = .unknownOutcome → run.Unknown) :
    (sys.change run c stage promise observations).Resumable := by
  have hown : ∀ {c' stage'}, Function.update sys.requests c stage c' = some stage' →
      c' = c ∧ stage = some stage' := by
    intro c' stage' hstage'
    by_cases hc : c' = c
    · subst hc
      exact ⟨rfl, by simpa using hstage'⟩
    · rw [Function.update_of_ne hc, hnone c' hc] at hstage'
      cases hstage'
  -- `c` is the only request there is
  exact {
    recorded := hrecorded
    requests := fun c' stage' hstage' => hstage stage' (hown hstage').2
    first := fun _ c₁ c₂ _ _ h₁ h₂ => (hown h₁).1.trans (hown h₂).1.symm
    verified := hverified
    unknown := fun hstate => .inl (hunknown hstate) }

/-- A request written back on a run that keeps its grounds and its state. -/
theorem RunSystem.Resumable.change {sys : RunSystem} (h : sys.Resumable) {run : RunRecord}
    {c : RequestId} {stage : Option RequestStage} {promise : Option AdapterPromise}
    {observations : List RunObservation} (hstate : run.state = sys.run.state)
    (hrecorded : ∀ operation, run.Recorded operation → run.Admitted operation.payloadHash)
    (hsucceeded : sys.run.Succeeded → run.Succeeded)
    (hothers : ∀ c' stage', c' ≠ c → sys.requests c' = some stage' → stage'.Fits run)
    (hstage : ∀ stage', stage = some stage' → stage'.Fits run)
    (hfirst : sys.run.state = .authorized → stage = none ∨ sys.requests c ≠ none)
    (hunknown : sys.run.state = .unknownOutcome → run.Unknown ∨ ∃ c' settled,
      Function.update sys.requests c stage c' = some (.settled settled) ∧ settled.Reconciles) :
    (sys.change run c stage promise observations).Resumable where
  recorded := hrecorded
  requests c' stage' hstage' := by
    by_cases hc : c' = c
    · subst hc
      exact hstage stage' (by simpa using hstage')
    · exact hothers c' stage' hc (by simpa [hc] using hstage')
  first hauthorized c₁ c₂ stage₁ stage₂ h₁ h₂ := by
    have hbefore : sys.run.state = .authorized := hstate.symm.trans hauthorized
    -- a request that is written back was there before
    have hold : ∀ {c' stage'}, Function.update sys.requests c stage c' = some stage' →
        ∃ before, sys.requests c' = some before := by
      intro c' stage' hstage'
      by_cases hc : c' = c
      · subst hc
        rw [Function.update_self] at hstage'
        rcases hfirst hbefore with hnone | hsome
        · cases hnone.symm.trans hstage'
        · exact Option.ne_none_iff_exists'.mp hsome
      · exact ⟨stage', by simpa [hc] using hstage'⟩
    obtain ⟨before₁, h₁⟩ := hold h₁
    obtain ⟨before₂, h₂⟩ := hold h₂
    exact h.first hbefore c₁ c₂ before₁ before₂ h₁ h₂
  verified hverified := hsucceeded (h.verified (hstate.symm.trans hverified))
  unknown hstate' := hunknown (hstate.symm.trans hstate')

/-- The same, where the store is kept as well. -/
theorem RunSystem.Resumable.keep {sys : RunSystem} (h : sys.Resumable) {run : RunRecord}
    {c : RequestId} {stage : Option RequestStage} {promise : Option AdapterPromise}
    {observations : List RunObservation} (hgrounds : SameGrounds sys.run run)
    (hstore : run.operationStore = sys.run.operationStore) (hstate : run.state = sys.run.state)
    (hstage : ∀ stage', stage = some stage' → stage'.Fits run)
    (hfirst : sys.run.state = .authorized → stage = none ∨ sys.requests c ≠ none)
    (hunknown : sys.run.state = .unknownOutcome → ∀ settled,
      sys.requests c = some (.settled settled) → settled.Reconciles →
      stage = some (.settled settled)) :
    (sys.change run c stage promise observations).Resumable := by
  refine h.change hstate (fun operation hoperation => ?_) (·.mono hgrounds hstore)
    (fun c' stage' _ hstage' => ?_) hstage hfirst fun hbefore => ?_
  · have hrecorded := (hgrounds.recorded hstore operation).mp hoperation
    exact (h.recorded operation hrecorded).mono hgrounds
  · exact (h.requests c' stage' hstage').mono hgrounds (hstate.trans ·) (·.mono hgrounds hstore)
      fun _ => (·.mono hgrounds hstore)
  · refine (h.unknown hbefore).imp (·.mono hgrounds hstore) ?_
    -- a reconciliation that has settled stays until it is resumed
    rintro ⟨c', settled, hrequest, hreconciles⟩
    refine ⟨c', settled, ?_, hreconciles⟩
    by_cases hc : c' = c
    · subst hc
      rw [Function.update_self]
      exact hunknown hbefore settled hrequest hreconciles
    · rwa [Function.update_of_ne hc]

/-! ## Turns -/

/-- A call is judged on the run as it stands. -/
theorem executeForRun_grounds (registry : CapabilityRegistry) (run : RunRecord)
    (capability : Capability) (reads : CallReads) :
    SameGrounds run (executeForRun registry run capability reads).run := by
  have hcapability := executeForRun_capability registry run capability reads
  have hsame := (executeForRun_facts registry run capability reads).same
  exact ⟨hsame.plan, hcapability, hsame.resourceVersionAtProposal, hsame.resourceVersionNow⟩

/-- Where a call leaves its request fits the run; and it is the first one unless there is
    something on record. -/
theorem executeForRun_fits (registry : CapabilityRegistry) (run : RunRecord)
    {capability : Capability} (reads : CallReads) (hcapability : run.capability = some capability)
    (hfirst : (∀ operation, ¬ run.Recorded operation) → run.state = .authorized) :
    ∀ stage, (executeForRun registry run capability reads).stage = some stage →
      stage.Fits (executeForRun registry run capability reads).run := by
  intro stage hstage
  have hgrounds := executeForRun_grounds registry run capability reads
  have hfacts := executeForRun_facts registry run capability reads
  -- the turn keeps the run's grounds, so the run before it is enough
  suffices hfits : stage.Fits run from hfits.mono hgrounds (hfacts.same.state.trans ·)
    (·.mono hgrounds hfacts.store) fun _ => (·.mono hgrounds hfacts.store)
  have hcase := executeForRun_cases registry run capability reads
  generalize executeForRun registry run capability reads = turn at hcase hstage
  cases hcase with
  | unwired => cases hstage
  | called postcondition shared progress hpost houtcome =>
    have hadmitted : ∀ {parsed payloadHash},
        PassesGuards (run.callInput capability postcondition) reads.now parsed →
        hashCanonical run.parameters.toJsValue = .ok payloadHash → run.Admitted payloadHash := by
      intro parsed payloadHash hguards hhash
      obtain ⟨rfl, -⟩ := parseAndValidateCapability_toJsValue.mp hguards.1
      exact ⟨⟨_, postcondition, reads.now, hcapability, hpost, hguards⟩, hhash⟩
    cases houtcome with
    | capabilityRefused | preconditionFailed | unhashableParams | conflict | replayedFailure
    | registryRefused =>
      obtain rfl := Option.some.inj hstage
      exact ⟨False.elim, False.elim⟩
    | replayed parsed prior entry hguards hhash hrecord hstate hreceipt =>
      obtain rfl := Option.some.inj hstage
      exact ⟨fun _ => ⟨prior, hrecord, hstate, hreceipt⟩, False.elim⟩
    | lookingUp parsed prior hguards hhash hrecord =>
      obtain rfl := Option.some.inj hstage
      exact ⟨hadmitted hguards hhash, rfl, hpost, fun h => by cases h⟩
    | entered parsed payloadHash registry' entry hguards hhash hnew hconsume hstarted =>
      -- a key that is new has no record, which is the first call
      have hauthorized := hfirst fun operation hrecord => by cases hnew.symm.trans hrecord
      rw [invokeAdapter] at hstage
      split at hstage <;>
        (obtain rfl := Option.some.inj hstage
         exact ⟨hadmitted hguards hhash, rfl, hpost, fun _ => hauthorized⟩)

/-- A later call keeps what the next one relies on. -/
private theorem RunSystem.Resumable.again {sys : RunSystem} (h : sys.Resumable)
    (hsound : sys.Sound) {c : RequestId} (hunused : sys.Unused c) (registry : CapabilityRegistry)
    {capability : Capability} (reads : CallReads)
    (hcapability : sys.run.capability = some capability) (hconcluded : sys.run.state.Concluded) :
    (sys.enter c (executeForRun registry sys.run capability reads)).Resumable := by
  have hfacts := executeForRun_facts registry sys.run capability reads
  obtain ⟨operation, hoperation⟩ := hsound.recorded hconcluded
  refine h.keep (executeForRun_grounds registry sys.run capability reads) hfacts.store
    hfacts.same.state ?_ (fun hauthorized => ?_) fun _ settled hrequest => ?_
  · exact executeForRun_fits registry sys.run reads hcapability fun hnone =>
      absurd hoperation (hnone _)
  · rw [hauthorized] at hconcluded
    exact hconcluded.elim
  · cases hunused.requests.symm.trans hrequest

/-- The first call of a run that has nothing on record. -/
private theorem RunSystem.Resumable.call {sys : RunSystem} (hnone : ∀ c, sys.requests c = none)
    (run : RunRecord) (hstate : run.state = .authorized)
    (hunrecorded : ∀ operation, ¬ run.Recorded operation) (c : RequestId)
    (registry : CapabilityRegistry) (evidence : AuthorizationEvidence) (draw : AuthorizeDraw) :
    (sys.enter c (authorizeAndExecute registry run evidence draw)).Resumable := by
  have hfacts := authorizeAndExecute_facts registry run evidence draw
  have hcase := authorizeAndExecute_cases registry run evidence draw
  generalize authorizeAndExecute registry run evidence draw = turn at hfacts hcase
  have hauthorized : turn.run.state = .authorized := hfacts.same.state.trans hstate
  -- nothing is recorded under the run's key yet
  refine .alone (fun c' _ => hnone c') ?_ (fun operation hoperation => ?_)
    (fun hverified => by cases hauthorized.symm.trans hverified)
    (fun hunknown => by cases hauthorized.symm.trans hunknown)
  · cases hcase with
    | unminted => exact fun _ h => by cases h
    | minted capability entry hmint hminted =>
      exact executeForRun_fits (registry.record capability)
        { run.appendRows [entry] with capability := some capability } draw.reads rfl
        fun _ => hstate
  · rw [RunRecord.Recorded, hfacts.store, hfacts.same.plan] at hoperation
    exact absurd hoperation (hunrecorded operation)

/-! ## Steps -/

/-- What a lookup finds at the run's own adapter verifies. -/
theorem Waiting.Fits.verified {run : RunRecord} {call : LookupCall} {wakeup : Wakeup}
    {receipt : JsValue} (h : (Waiting.lookingUp call).Fits run)
    (hfound : ∀ answer, wakeup = .lookupSettled (.resolved answer) →
      (AdapterPromise.lookedUp answer).Own run.toRunPlan)
    (hreceives : Receives (.lookingUp call) wakeup receipt) :
    verifyPostcondition call.input.request.actionType receipt call.input.postcondition = true := by
  have hrequest : call.input.request = run.request := h.request
  cases hreceives with
  | found _ value status hstatus hknown =>
    rw [hrequest]
    exact hfound value rfl status hstatus hknown _ h.postcondition

/-- What a settled call of the run leaves to be done fits the run. -/
private theorem Waiting.Fits.settle {run : RunRecord} {waiting : Waiting} {wakeup : Wakeup}
    {registry : CapabilityRegistry} {shared : Shared} {settled : Settled} (h : waiting.Fits run)
    (hoperation : waiting.input.operation = run.operation)
    (hsettlement : Settlement ⟨registry, run.operationStore, run.ledger⟩ waiting wakeup shared
      settled) :
    settled.Fits { run with operationStore := shared.operationStore, ledger := shared.ledger } := by
  have hkey : waiting.input.operation.idempotencyKey = run.idempotencyKey :=
    congrArg AdapterOperation.idempotencyKey hoperation
  have hown : ∀ record : OperationRecord, record.idempotencyKey = run.idempotencyKey →
      (run.operationStore.record record).byIdempotencyKey run.idempotencyKey = some record := by
    intro record hrecord
    rw [← hrecord, OperationStore.byIdempotencyKey_record]
  -- a success leaves its record, and so does a time-out
  cases hsettlement with
  | verified _ _ receipt entry hreceives hverified =>
    exact ⟨fun _ => ⟨waiting.succeededRecord receipt, hown _ hkey, rfl,
      isUndefined_of_verified hverified⟩, False.elim⟩
  | timedOut call entry =>
    exact ⟨False.elim, fun _ => ⟨h.first rfl, call.outcomeRecord .unknownOutcome none,
      hown _ hkey, rfl, congrArg AdapterOperation.operationId hoperation⟩⟩
  | unverified | rejected | crashed | refusal | inconclusive | lookupMalformed | lookupRejected =>
    exact ⟨False.elim, False.elim⟩

/-- Whatever a call of the run leaves on record was admitted. -/
private theorem Waiting.Fits.recorded {run : RunRecord} {waiting : Waiting} {wakeup : Wakeup}
    {registry : CapabilityRegistry} {shared : Shared} {settled : Settled} (h : waiting.Fits run)
    (hoperation : waiting.input.operation = run.operation)
    (hrecorded : ∀ operation, run.Recorded operation → run.Admitted operation.payloadHash)
    (hsettlement : Settlement ⟨registry, run.operationStore, run.ledger⟩ waiting wakeup shared
      settled) {operation : OperationRecord}
    (hfound : shared.operationStore.byIdempotencyKey run.idempotencyKey = some operation) :
    run.Admitted operation.payloadHash := by
  rcases hsettlement.operationStore_cases with ⟨record, hstore, hwritten⟩ | ⟨hstore, -⟩
  · rw [hstore] at hfound
    have hkey : record.idempotencyKey = run.idempotencyKey :=
      hwritten.idempotencyKey_eq.trans (congrArg AdapterOperation.idempotencyKey hoperation)
    rw [← hkey, OperationStore.byIdempotencyKey_record] at hfound
    obtain rfl := Option.some.inj hfound
    exact hwritten.payloadHash_eq ▸ h.admitted
  · rw [hstore] at hfound
    exact hrecorded operation hfound

omit [Host] in
/-- Another ledger and another store leave the grounds of a call as they are. -/
theorem RunRecord.sameGrounds_settled (run : RunRecord) (operationStore : OperationStore)
    (ledger : AuditLedger) :
    SameGrounds run { run with operationStore := operationStore, ledger := ledger } :=
  ⟨rfl, rfl, rfl, rfl⟩

/-- A reconciliation leaves the store alone, or has found the receipt. -/
theorem Settlement.reconciling_cases {shared shared' : Shared} {call : LookupCall}
    {wakeup : Wakeup} {settled : Settled}
    (h : Settlement shared (.lookingUp call) wakeup shared' settled)
    (hverified : ∀ receipt, Receives (.lookingUp call) wakeup receipt →
      verifyPostcondition call.input.request.actionType receipt call.input.postcondition = true) :
    (settled.Succeeds ∧ settled.Reconciles) ∨
      (¬ settled.Succeeds ∧ shared'.operationStore = shared.operationStore) := by
  generalize hwaiting : Waiting.lookingUp call = waiting at h
  cases h with
  | verified => exact hwaiting ▸ .inl ⟨trivial, rfl⟩
  | unverified _ _ receipt entry hreceives hunverified =>
    subst hwaiting
    cases (hverified receipt hreceives).symm.trans hunverified
  | inconclusive | lookupMalformed | lookupRejected => exact .inr ⟨id, rfl⟩
  | timedOut | rejected | crashed | refusal => cases hwaiting

/-- The end of a call's wait. -/
private theorem RunSystem.Resumable.wake {sys : RunSystem} (h : sys.Resumable)
    (hsound : sys.Sound) (hreceipted : sys.Receipted) {c : RequestId} {waiting : Waiting}
    {wakeup : Wakeup} {registry : CapabilityRegistry} {stamp : Stamp} {shared : Shared}
    {settled : Settled} (hrequest : sys.requests c = some (.waiting waiting))
    (hwakes : sys.Wakes c wakeup)
    (hresume : waiting.resume wakeup ⟨registry, sys.run.operationStore, sys.run.ledger⟩ stamp =
      some (shared, settled)) :
    (sys.change { sys.run with operationStore := shared.operationStore, ledger := shared.ledger } c
      (some (.settled settled)) (sys.promises c) []).Resumable := by
  have hsettlement := resume_cases hresume
  have hwaiting : waiting.Fits sys.run := h.requests c _ hrequest
  have hoperation := (hsound.requests c _ hrequest).1
  have hgrounds := sys.run.sameGrounds_settled shared.operationStore shared.ledger
  have hsettled := hwaiting.settle hoperation hsettlement
  have hstage : ∀ stage, some (RequestStage.settled settled) = some stage →
      stage.Fits { sys.run with
        operationStore := shared.operationStore, ledger := shared.ledger } := by
    intro stage hstage
    obtain rfl := Option.some.inj hstage
    exact hsettled
  have hrecorded := fun operation (hfound : shared.operationStore.byIdempotencyKey
      sys.run.idempotencyKey = some operation) =>
    (hwaiting.recorded hoperation h.recorded hsettlement hfound).mono hgrounds
  cases hreconciles : waiting.reconciles with
  | false =>
    -- the first call is alone, and its run is not verified yet
    have hauthorized := hwaiting.first hreconciles
    refine .alone (fun c' hne => ?_) hstage hrecorded
      (fun hverified => by cases hauthorized.symm.trans hverified)
      (fun hunknown => by cases hauthorized.symm.trans hunknown)
    by_contra hsome
    obtain ⟨stage, hother⟩ := Option.ne_none_iff_exists'.mp hsome
    exact hne (h.first hauthorized c' c stage _ hother hrequest)
  | true =>
    cases waiting with
    | executing | refused => cases hreconciles
    | lookingUp call =>
      have hfound : ∀ answer, wakeup = .lookupSettled (.resolved answer) →
          (AdapterPromise.lookedUp answer).Own sys.run.toRunPlan := by
        rintro answer rfl
        exact hreceipted.promises c _ hwakes.lookedUp
      have hinflight : sys.requests c ≠ none := by
        rw [hrequest]
        exact Option.some_ne_none _
      rcases hsettlement.reconciling_cases fun _ => hwaiting.verified hfound with
        ⟨hsucceeds, hfinds⟩ | ⟨-, hstore⟩
      · have hsucceeded := hsettled.succeeded hsucceeds
        refine h.change rfl hrecorded (fun _ => hsucceeded) (fun c' stage hne hstage' => ?_) hstage
          (fun _ => .inr hinflight) fun _ => .inr ⟨c, settled, Function.update_self .., hfinds⟩
        exact h.others hrequest hstage' hne hgrounds fun _ => hsucceeded
      · refine h.keep hgrounds hstore rfl hstage (fun _ => .inr hinflight) fun _ other hother => ?_
        cases hrequest.symm.trans hother

/-- The end of a request. -/
private theorem RunSystem.Resumable.finish {sys : RunSystem} (h : sys.Resumable) {c : RequestId}
    {settled : Settled} {now : Instant} {run : RunRecord} {outcome : Except RequestError Unit}
    (hrequest : sys.requests c = some (.settled settled))
    (hfinish : finishExecution sys.run settled now = (run, outcome)) :
    (sys.change run c none (sys.promises c) [.responded outcome]).Resumable := by
  have hsettled : settled.Fits sys.run := h.requests c _ hrequest
  -- a receipt that was found takes an unknown outcome on to `VERIFIED`
  have hverifies : ∀ {result}, (Settled.returned result).Reconciles →
      applyExecutionResult .unknownOutcome result = .ok .verified := by
    intro result hreconciles
    unfold Settled.Reconciles at hreconciles
    split at hreconciles
    · rename_i heq
      cases heq
      subst hreconciles
      rfl
    · exact hreconciles.elim
  cases finishExecution_cases hfinish with
  | threw error =>
    refine h.keep ⟨rfl, rfl, rfl, rfl⟩ rfl rfl (by simp) (fun _ => .inl rfl) ?_
    intro _ other hother hreconciles
    cases hrequest.symm.trans hother
    exact hreconciles.elim
  | illegal result error hresult =>
    refine h.keep ⟨rfl, rfl, rfl, rfl⟩ rfl rfl (by simp) (fun _ => .inl rfl) ?_
    intro hunknown other hother hreconciles
    cases hrequest.symm.trans hother
    rw [hunknown, hverifies hreconciles] at hresult
    cases hresult
  | finished result state execution lastActionAt hresult =>
    have hgrounds : SameGrounds sys.run
        { sys.run with state := state, execution := execution, lastActionAt := lastActionAt } :=
      ⟨rfl, rfl, rfl, rfl⟩
    rcases applyExecutionResult_eq_ok hresult with hsame | hedge
    · refine h.keep hgrounds rfl hsame (by simp) (fun _ => .inl rfl) ?_
      intro hunknown other hother hreconciles
      cases hrequest.symm.trans hother
      rw [hunknown, hverifies hreconciles] at hresult
      cases (Except.ok.inj hresult).trans (hsame.trans hunknown)
    · have hrecorded := fun operation hfound => (h.recorded operation hfound).mono hgrounds
      generalize hbefore : sys.run.state = before at hedge
      by_cases hauthorized : before = .authorized
      · -- the first call was alone
        refine .alone (fun c' hne => ?_) (by simp) hrecorded (fun hverified => ?_)
          fun hunknown => ?_
        · by_contra hsome
          obtain ⟨stage, hother⟩ := Option.ne_none_iff_exists'.mp hsome
          exact hne (h.first (hbefore.trans hauthorized) c' c stage _ hother hrequest)
        · have hverified : state = .verified := hverified
          subst hverified
          cases hedge with
          | verified | reconciled => exact hsettled.succeeded trivial
        · have hunknown : state = .unknownOutcome := hunknown
          subst hunknown
          cases hedge with
          | unknown => exact (hsettled.unknown trivial).2
      · exact {
          recorded := hrecorded
          requests := fun c' stage hstage => by
            by_cases hc : c' = c
            · subst hc
              simp at hstage
            · have hother : sys.requests c' = some stage := by simpa [hc] using hstage
              exact h.others hrequest hother hc hgrounds id
          first := fun hstate => by
            have hstate : state = .authorized := hstate
            subst hstate
            cases hedge
          verified := fun hverified => by
            have hverified : state = .verified := hverified
            subst hverified
            cases hedge with
            | verified | reconciled => exact hsettled.succeeded trivial
          unknown := fun hunknown => by
            have hunknown : state = .unknownOutcome := hunknown
            subst hunknown
            cases hedge with
            | unknown => exact absurd rfl hauthorized }

/-- A new run. -/
theorem RunSystem.Resumable.born {model : ModelAdapter} {sys : RunSystem} (h : Born model sys) :
    sys.Resumable := by
  cases h with
  | created scenarioId draw registry run c hnew =>
    have hrun := proposeRun_eq_ok hnew
    have hcase := followVerdict_cases registry draw.authorize hrun.state
    generalize followVerdict registry run draw.authorize = turn at hcase
    cases hcase with
    | denied | parked =>
      exact .alone (fun _ _ => rfl) (fun _ h => by cases h)
        (fun operation hoperation => absurd hoperation (hrun.unrecorded operation))
        (fun h => by cases h) (fun h => by cases h)
    | allowed houtcome =>
      exact .call (fun _ => rfl) { run with state := .authorized } rfl hrun.unrecorded c registry _
        draw.authorize

/-- One step of a run keeps what its next call relies on. -/
theorem RunSystem.Resumable.step {C : RunSystem → CallReads → Prop} {sys sys' : RunSystem}
    (h : sys.Resumable) (hsound : sys.Sound) (hreceipted : sys.Receipted)
    (hstep : RunStep C sys sys') : sys'.Resumable := by
  have hunrequested : ∀ {c : RequestId} {stage : Option RequestStage}, sys.Unused c →
      sys.run.state = .unknownOutcome → ∀ settled,
      sys.requests c = some (.settled settled) → settled.Reconciles →
      stage = some (.settled settled) := by
    intro c stage hunused _ settled hrequest
    cases hunused.requests.symm.trans hrequest
  cases hstep with
  | refused c error hunused =>
    exact h.keep ⟨rfl, rfl, rfl, rfl⟩ rfl rfl (by simp) (fun _ => .inl rfl) (hunrequested hunused)
  | approved c registry draw turn hunused hturn =>
    cases approveRun_cases hsound.pinned hturn with
    | approved consumed row hstate happroves hrow =>
      have hidle := hsound.parked (.inr hstate)
      exact .call hidle.requests { sys.run.appendRows [row] with
          approval := some consumed
          state := .authorized
          lastActionAt := Host.toISOString draw.lastActionAt } rfl hidle.unrecorded c registry _
        draw.authorize
  | replayed c registry reads turn hunused hturn =>
    obtain ⟨hstate, capability, hcapability, rfl⟩ := replayRun_eq_ok hturn
    exact h.again hsound hunused registry reads hcapability (by rw [hstate]; trivial)
  | reconciled c registry reads turn hunused hreads hturn =>
    obtain ⟨hstate, capability, hcapability, rfl⟩ := reconcileRun_eq_ok hturn
    refine h.again hsound hunused registry reads hcapability ?_
    rcases hstate with hstate | hstate <;> rw [hstate] <;> trivial
  | drifted c now run hunused hdrift =>
    obtain ⟨hstate, rfl⟩ := simulateDrift_eq_ok hdrift
    have hidle := hsound.parked (.inr hstate)
    exact .alone (fun c' _ => hidle.requests c') (by simp)
      (fun operation hoperation => absurd hoperation (hidle.unrecorded operation))
      (fun hverified => by cases hstate.symm.trans hverified)
      (fun hunknown => by cases hstate.symm.trans hunknown)
  | checked c stamp run result hunused hverify =>
    obtain ⟨row, -, rfl⟩ := verifyRunLedger_eq_ok hverify
    exact h.keep ⟨rfl, rfl, rfl, rfl⟩ rfl rfl (by simp) (fun _ => .inl rfl) (hunrequested hunused)
  | executed c operation capability params draw adapter outcome hpromise hexecute =>
    have hgrounds : SameGrounds sys.run { sys.run with adapter := adapter } := ⟨rfl, rfl, rfl, rfl⟩
    -- the adapter's own store is none of the grounds
    refine h.keep hgrounds rfl rfl (fun stage hstage => ?_) (fun _ => ?_) fun _ _ hrequest _ => ?_
    · exact (h.requests c stage hstage).mono hgrounds id (·.mono hgrounds rfl)
        fun _ => (·.mono hgrounds rfl)
    · exact (eq_or_ne (sys.requests c) none).imp_right id
    · exact hrequest
  | woke c waiting wakeup registry stamp shared settled hrequest hwakes hresume =>
    exact h.wake hsound hreceipted hrequest hwakes hresume
  | resumed c settled now run outcome hrequest hfinish => exact h.finish hrequest hfinish

/-- What holds of every run in every reachable state. -/
structure RunSystem.Wellkept (sys : RunSystem) : Prop where
  sound : sys.Sound
  receipted : sys.Receipted
  resumable : sys.Resumable

/-- One step of a run keeps it. -/
theorem RunSystem.Wellkept.step {C : RunSystem → CallReads → Prop} {sys sys' : RunSystem}
    (h : sys.Wellkept) (hstep : RunStep C sys sys') : sys'.Wellkept where
  sound := h.sound.step hstep
  receipted := h.receipted.step h.sound.pinned hstep
  resumable := h.resumable.step h.sound h.receipted hstep

/-- Every run of the server is kept so. -/
theorem Server.run_wellkept {model : ModelAdapter} {events : List ServerEvent} {s : Server}
    (hrun : Transition.run (Server.step model) {} events = some s) {ref : RunRef}
    {sys : RunSystem} (hsystem : s.system ref = some sys) : sys.Wellkept :=
  run_system_invariant (P := RunSystem.Wellkept) (fun _ hborn => ⟨.born hborn, .born hborn, .born hborn⟩)
    (fun _ _ h hstep => h.step hstep) (meets_true {} events) hrun hsystem

/-! ## How a later call goes -/

/-- The guards an admitted call has passed are those of the next one. -/
theorem RunRecord.Admitted.guarded {run : RunRecord} {capability : Capability}
    {payloadHash : JsString} (h : run.Admitted payloadHash)
    (hcapability : run.capability = some capability) :
    ∃ postcondition now, run.postcondition = some postcondition ∧
      PassesGuards (run.callInput capability postcondition) now capability := by
  obtain ⟨held, postcondition, now, hheld, hpost, hguards⟩ := h.guards
  obtain rfl := Option.some.inj (hcapability.symm.trans hheld)
  exact ⟨postcondition, now, hpost, hguards⟩

/-- A run with a postcondition makes its call. -/
theorem executeForRun_called (registry : CapabilityRegistry) {run : RunRecord}
    (capability : Capability) (reads : CallReads) {postcondition : PostconditionExpectation}
    (hpost : run.postcondition = some postcondition) :
    ∃ shared progress, StartOutcome ⟨registry, run.operationStore, run.ledger⟩
        (run.callInput capability postcondition) reads shared progress ∧
      executeForRun registry run capability reads =
        { registry := shared.registry
          run := { run with
            operationStore := shared.operationStore
            ledger := shared.ledger }.invokeAdapter progress
          progress := .calling progress } := by
  rw [executeForRun, hpost]
  exact ⟨_, _, executeAction_cases _ _ _, rfl⟩

section
variable {run : RunRecord} {capability : Capability} {prior : OperationRecord} {reads : CallReads}

/-- Once its capability has expired, the call is refused. -/
theorem executeForRun_expired (registry : CapabilityRegistry)
    (hadmitted : run.Admitted prior.payloadHash) (hcapability : run.capability = some capability)
    (hexpired : isExpired capability.expiresAt reads.now = true) :
    executeForRun registry run capability reads =
      { registry := registry
        run := run
        progress := .calling (.done (.returned (.capability .expired []))) } := by
  obtain ⟨postcondition, now, hpost, hguards⟩ := hadmitted.guarded hcapability
  obtain ⟨shared, progress, hstart, hturn⟩ := executeForRun_called registry capability reads hpost
  have hguard : parseAndValidateCapability
      (run.callInput capability postcondition).capabilityRaw
      (run.callInput capability postcondition).request reads.now = .error .expired := by
    rw [parseAndValidateCapability_later hguards.1, hexpired]
    rfl
  obtain ⟨rfl, rfl⟩ := hstart.refused_of_error hguard
  rw [hturn]
  rfl

/-- Until then, a recorded success is replayed. -/
theorem executeForRun_replayed (registry : CapabilityRegistry)
    (hadmitted : run.Admitted prior.payloadHash) (hcapability : run.capability = some capability)
    (hlive : isExpired capability.expiresAt reads.now = false) (hrecord : run.Recorded prior)
    (hstate : prior.state = .succeeded) (hreceipt : prior.receipt.isUndefined = false) :
    ∃ entry, executeForRun registry run capability reads =
      { registry := registry
        run := run.appendRows [entry]
        progress := .calling (.done (.returned
          (.ok prior.receipt true prior.operationId (some .idempotentReplay) [entry]))) } := by
  obtain ⟨postcondition, now, hpost, hguards⟩ := hadmitted.guarded hcapability
  obtain ⟨shared, progress, hstart, hturn⟩ := executeForRun_called registry capability reads hpost
  obtain ⟨entry, rfl, rfl⟩ := hstart.replayed_of_recorded (hguards.later hlive) hadmitted.hash
    hrecord hstate hreceipt
  exact ⟨entry, hturn⟩

/-- And an unknown outcome is looked up. -/
theorem executeForRun_lookingUp (registry : CapabilityRegistry)
    (hadmitted : run.Admitted prior.payloadHash) (hcapability : run.capability = some capability)
    (hlive : isExpired capability.expiresAt reads.now = false) (hrecord : run.Recorded prior)
    (hunknown : prior.state = .unknownOutcome) :
    ∃ postcondition, run.postcondition = some postcondition ∧
      executeForRun registry run capability reads =
        { registry := registry
          run := run
          progress := .calling (.waiting
            (.lookingUp ⟨run.callInput capability postcondition, prior⟩)) } := by
  obtain ⟨postcondition, now, hpost, hguards⟩ := hadmitted.guarded hcapability
  obtain ⟨shared, progress, hstart, hturn⟩ := executeForRun_called registry capability reads hpost
  obtain ⟨rfl, rfl⟩ := hstart.lookingUp_of_recorded (hguards.later hlive) hadmitted.hash hrecord
    (by simp [hunknown]) (by simp [hunknown])
  exact ⟨postcondition, hpost, hturn⟩

end

/-- A result the state machine takes is what the run is left with. -/
theorem finishExecution_eq {run : RunRecord} {result : ExecuteActionResult} {state : RunState}
    (h : applyExecutionResult run.state result = .ok state) (now : Instant) :
    finishExecution run (.returned result) now =
      ({ run with
          state := state
          execution := some (summarizeResult result)
          lastActionAt := Host.toISOString now }, .ok ()) := by
  rw [finishExecution, h]

end

end ActionHarbor
