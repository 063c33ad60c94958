import ActionHarbor.Spec.RunSystem
import ActionHarbor.Spec.WorldSteps

/-!
# Orchestrated authority

Over any order of requests, adapter completions and timers, a run gets at most one
capability and its adapter is executed at most once, with the run's own plan, never
after a denial or a drift, and under `REQUIRE_APPROVAL` only behind the row of a
consumed approval of that plan.

The order of ids plays no part: a run's store, ledger and adapter are its own
objects, and only the store decides whether the adapter is executed again.

## Key results

- `RunSystem.Sound.step`: one step of a run keeps the invariant
- `Server.orchestrated_authority`: what holds of every run of every reachable server
-/

namespace ActionHarbor

/-! ## Settling and finishing -/

section
variable [Host]

/-- What the end of a call's wait does to the store and the ledger. -/
structure SettlementFacts (shared : Shared) (waiting : Waiting) (shared' : Shared)
    (settled : Settled) : Prop where
  ledger : ∃ rows, shared'.ledger.entries = shared.ledger.entries ++ rows
  /-- a recorded operation stays recorded, perhaps as another one -/
  store : ∀ key operation, shared.operationStore.byIdempotencyKey key = some operation →
    ∃ operation', shared'.operationStore.byIdempotencyKey key = some operation'
  concludes : settled.Concludes → waiting.reconciles = true ∨
    ∃ operation, shared'.operationStore.byIdempotencyKey waiting.idempotencyKey = some operation

theorem Settlement.facts {shared shared' : Shared} {waiting : Waiting} {wakeup : Wakeup}
    {settled : Settled} (h : Settlement shared waiting wakeup shared' settled) :
    SettlementFacts shared waiting shared' settled := by
  -- writing a record never empties an entry of the store
  have hrecord : ∀ (store : OperationStore) (record : OperationRecord) key operation,
      store.byIdempotencyKey key = some operation →
      ∃ operation', (store.record record).byIdempotencyKey key = some operation' := by
    intro store record key operation hoperation
    by_cases hkey : key = record.idempotencyKey
    · exact ⟨record, hkey ▸ Function.update_self ..⟩
    · exact ⟨operation, (Function.update_of_ne hkey ..).trans hoperation⟩
  cases h with
  | verified _ _ receipt entry =>
    exact ⟨⟨[entry], rfl⟩, hrecord _ _, fun _ => .inr ⟨_, Function.update_self ..⟩⟩
  | unverified _ _ receipt entry => exact ⟨⟨[entry], rfl⟩, hrecord _ _, False.elim⟩
  | timedOut call entry =>
    exact ⟨⟨[entry], rfl⟩, hrecord _ _, fun _ => .inr ⟨_, Function.update_self ..⟩⟩
  | rejected | refusal =>
    exact ⟨⟨[], (List.append_nil _).symm⟩, hrecord _ _, False.elim⟩
  | crashed | lookupMalformed | lookupRejected =>
    exact ⟨⟨[], (List.append_nil _).symm⟩, fun _ operation h => ⟨operation, h⟩, False.elim⟩
  | inconclusive call _ _ entry =>
    exact ⟨⟨[entry], rfl⟩, fun _ operation h => ⟨operation, h⟩, fun _ => .inl rfl⟩

end

/-- The edges of the state machine a result of `executeAction` follows. -/
inductive ResultEdge : RunState → ExecuteActionResult → RunState → Prop
  | verified (receipt : JsValue) (replay : Bool) (operationId : JsString)
      (reasonCode : Option VerificationReasonCode) (auditEvents : List AuditLedgerEntry)
      (hreason : reasonCode ≠ some .reconciledSuccess) :
      ResultEdge .authorized (.ok receipt replay operationId reasonCode auditEvents) .verified
  | reconciled (receipt : JsValue) (replay : Bool) (operationId : JsString)
      (auditEvents : List AuditLedgerEntry) :
      ResultEdge .unknownOutcome
        (.ok receipt replay operationId (some .reconciledSuccess) auditEvents) .verified
  | stale (reasonCodes : List PreconditionRejectionReason) (auditEvents : List AuditLedgerEntry) :
      ResultEdge .authorized (.precondition reasonCodes auditEvents) .stale
  | unknown (operationId : JsString) (auditEvents : List AuditLedgerEntry) :
      ResultEdge .authorized (.unknownOutcome operationId auditEvents) .unknownOutcome
  | inconclusive (operationId : JsString) (auditEvents : List AuditLedgerEntry) :
      ResultEdge .unknownOutcome (.reconciliationRequired operationId auditEvents)
        .reconciliationRequired
  | failed (auditEvents : List AuditLedgerEntry) :
      ResultEdge .authorized (.postcondition auditEvents) .failed

/-- A result leaves the state alone or follows an edge. -/
theorem applyExecutionResult_eq_ok {state state' : RunState} {result : ExecuteActionResult}
    (h : applyExecutionResult state result = .ok state') :
    state' = state ∨ ResultEdge state result state' := by
  cases result with
  -- each result has one state it moves on from
  | ok receipt replay operationId reasonCode auditEvents =>
    rw [applyExecutionResult] at h
    split at h
    · rename_i hreason
      subst hreason
      cases state <;> cases h
      exact .inr (.reconciled ..)
    · rename_i hreason
      split at h
      · rename_i hstate
        subst hstate
        cases h
        exact .inr (.verified _ _ _ _ _ hreason)
      · exact .inl (Except.ok.inj h).symm
  | precondition =>
    cases state <;> cases h
    exact .inr (.stale ..)
  | unknownOutcome =>
    cases state <;> cases h
    exact .inr (.unknown ..)
  | reconciliationRequired =>
    cases state <;> cases h
    exact .inr (.inconclusive ..)
  | postcondition =>
    cases state <;> cases h
    exact .inr (.failed _)
  | capability | idempotency | adapter => exact .inl (Except.ok.inj h).symm

section
variable [Host]

/-- What the continuation of a request does to its run. -/
inductive FinishOutcome (run : RunRecord) : Settled → RunRecord → Except RequestError Unit → Prop
  | threw (error : CallError) : FinishOutcome run (.threw error) run (.error (.call error))
  | illegal (result : ExecuteActionResult) (error : RequestError)
      (hresult : applyExecutionResult run.state result = .error error) :
      FinishOutcome run (.returned result) run (.error error)
  | finished (result : ExecuteActionResult) (state : RunState)
      (execution : Option RunExecutionSummary) (lastActionAt : JsString)
      (hresult : applyExecutionResult run.state result = .ok state) :
      FinishOutcome run (.returned result)
        { run with state := state, execution := execution, lastActionAt := lastActionAt } (.ok ())

theorem finishExecution_cases {run run' : RunRecord} {settled : Settled} {now : Instant}
    {outcome : Except RequestError Unit}
    (h : finishExecution run settled now = (run', outcome)) :
    FinishOutcome run settled run' outcome := by
  cases settled with
  | threw error =>
    cases h
    exact .threw error
  | returned result =>
    simp only [finishExecution] at h
    cases hresult : applyExecutionResult run.state result with
    | error error =>
      rw [hresult] at h
      cases h
      exact .illegal result error hresult
    | ok state =>
      rw [hresult] at h
      cases h
      exact .finished result state _ _ hresult

end

/-! ## The invariant of one run -/

/-- The run has been approved: the approval is consumed, and its row stands before
    every row of an execution. -/
def RunSystem.Approved (sys : RunSystem) : Prop :=
  (∃ approval, sys.run.approval = some approval ∧ approval.Approves sys.run.toRunPlan) ∧
    ∃ before row after, sys.run.ledger.entries = before ++ row :: after ∧
      ApprovalRow row sys.run.proposalHash ∧
      (∀ entry ∈ before, entry.type ≠ .executionStarted) ∧
      (executions sys.history ≠ [] → ∃ started ∈ after, started.type = .executionStarted)

/-- Nothing has come of the run's authority yet. -/
structure RunSystem.Idle (sys : RunSystem) : Prop where
  minted : mintedCapabilities sys.history = []
  executed : executions sys.history = []
  requests : ∀ c, sys.requests c = none
  unstarted : ∀ entry ∈ sys.run.ledger.entries, entry.type ≠ .executionStarted
  unrecorded : ∀ operation, ¬ sys.run.Recorded operation

/-- The states a run has no authority in. -/
def RunState.Parked (state : RunState) : Prop :=
  state = .denied ∨ state = .approvalRequired

/-- The states behind a call that has concluded. -/
def RunState.Concluded : RunState → Prop
  | .verified | .unknownOutcome | .reconciliationRequired => True
  | _ => False

section
variable [Host]

/-- What holds of every run. -/
structure RunSystem.Sound (sys : RunSystem) : Prop where
  pinned : sys.run.Pinned
  denied : sys.run.policyVerdict.outcome = .deny → sys.run.state = .denied
  parked : sys.run.state.Parked → sys.Idle
  minted_once : (mintedCapabilities sys.history).length ≤ 1
  executed_once : (executions sys.history).length ≤ 1
  counted : sys.run.adapter.callCount = (executions sys.history).length
  versions : sys.run.resourceVersionAtProposal ≤ sys.run.resourceVersionNow
  drifted : .driftSimulated ∈ sys.history →
    sys.run.resourceVersionNow ≠ sys.run.resourceVersionAtProposal
  executed : ∀ operation capability params,
    (operation, capability, params) ∈ executions sys.history →
      capability.Covers sys.run.toRunPlan ∧ params = sys.run.parameters.toJsValue ∧
        sys.run.resourceVersionNow = sys.run.resourceVersionAtProposal
  recorded : sys.run.state.Concluded → ∃ operation, sys.run.Recorded operation
  requests : ∀ c stage, sys.requests c = some stage → stage.Sound sys.run
  approved : sys.run.policyVerdict.outcome = .requireApproval →
    sys.run.state ≠ .approvalRequired → sys.Approved

omit [Host] in
/-- A request stays sound when the run keeps its plan and its record. -/
theorem RequestStage.Sound.mono {run run' : RunRecord} {stage : RequestStage}
    (h : stage.Sound run) (hplan : run'.toRunPlan = run.toRunPlan)
    (hstore : (∃ operation, run.Recorded operation) → ∃ operation, run'.Recorded operation) :
    stage.Sound run' := by
  cases stage with
  | waiting call =>
    refine ⟨h.1.trans ?_, fun hreconciles => hstore (h.2 hreconciles)⟩
    rw [RunPlan.operation, RunPlan.operation, hplan]
  | settled outcome => exact fun hconcludes => hstore (h hconcludes)

/-- A change that neither mints, executes nor drifts. -/
structure RunSystem.Quiet (sys : RunSystem) (run : RunRecord)
    (observations : List RunObservation) : Prop where
  plan : run.toRunPlan = sys.run.toRunPlan
  resourceVersionAtProposal :
    run.resourceVersionAtProposal = sys.run.resourceVersionAtProposal
  resourceVersionNow : run.resourceVersionNow = sys.run.resourceVersionNow
  approval : run.approval = sys.run.approval
  callCount : run.adapter.callCount = sys.run.adapter.callCount
  ledger : ∃ rows, run.ledger.entries = sys.run.ledger.entries ++ rows
  store : (∃ operation, sys.run.Recorded operation) → ∃ operation, run.Recorded operation
  minted : mintedCapabilities observations = []
  executed : executions observations = []
  undrifted : .driftSimulated ∉ observations

omit [Host] in
/-- More rows do not undo an approval. -/
theorem RunSystem.Approved.append {sys sys' : RunSystem} (h : sys.Approved)
    (hplan : sys'.run.toRunPlan = sys.run.toRunPlan)
    (hsame : sys'.run.approval = sys.run.approval)
    (hledger : ∃ rows, sys'.run.ledger.entries = sys.run.ledger.entries ++ rows)
    (hexecuted : executions sys'.history = executions sys.history) : sys'.Approved := by
  obtain ⟨⟨approval, happroval, happroves⟩, before, row, after, hentries, hrow, hbefore, hstarted⟩ :=
    h
  obtain ⟨rows, hrows⟩ := hledger
  refine ⟨⟨approval, hsame.trans happroval, hplan ▸ happroves⟩, before, row, after ++ rows, ?_,
    hplan ▸ hrow, hbefore, fun hne => ?_⟩
  · rw [hrows, hentries]
    simp
  · obtain ⟨started, hmem, htype⟩ := hstarted (hexecuted ▸ hne)
    exact ⟨started, List.mem_append_left rows hmem, htype⟩

/-- A quiet change keeps the invariant, if it keeps the state or moves on from a call
    that has an operation on record. -/
theorem RunSystem.Sound.quiet {sys : RunSystem} (h : sys.Sound) {run : RunRecord} {c : RequestId}
    {stage : Option RequestStage} {promise : Option AdapterPromise}
    {observations : List RunObservation} (hquiet : sys.Quiet run observations)
    (hstage : ∀ stage', stage = some stage' → stage'.Sound run)
    (hstate : run.state = sys.run.state ∨ ¬ sys.run.state.Parked ∧ ¬ run.state.Parked)
    (hparked : sys.run.state.Parked →
      stage = none ∧ run.operationStore = sys.run.operationStore ∧
        ∀ entry ∈ run.ledger.entries, entry.type ≠ .executionStarted)
    (hrecorded : run.state.Concluded → ∃ operation, run.Recorded operation) :
    (sys.change run c stage promise observations).Sound := by
  have hexecuted : executions (sys.history ++ observations) = executions sys.history := by
    simp [hquiet.executed]
  have hminted : mintedCapabilities (sys.history ++ observations) =
      mintedCapabilities sys.history := by
    simp [hquiet.minted]
  have hplan : run.toRunPlan = sys.run.toRunPlan := hquiet.plan
  exact {
    pinned := by
      show run.Pinned
      rw [hplan]
      exact h.pinned
    denied := by
      intro houtcome
      have hdenied : sys.run.state = .denied := h.denied (hplan ▸ houtcome)
      rcases hstate with hsame | hmoved
      · exact hsame.trans hdenied
      · exact absurd (.inl hdenied) hmoved.1
    parked := by
      -- a run that is parked was parked before, and then it had nothing in flight
      intro hnow
      have hbefore : sys.run.state.Parked := by
        rcases hstate with hsame | hmoved
        · exact hsame ▸ hnow
        · exact absurd hnow hmoved.2
      have hidle := h.parked hbefore
      obtain ⟨rfl, hstore, hunstarted⟩ := hparked hbefore
      exact {
        minted := hminted.trans hidle.minted
        executed := hexecuted.trans hidle.executed
        requests := fun c' => by by_cases hc : c' = c <;> simp [hc, hidle.requests]
        unstarted := hunstarted
        unrecorded := by
          intro operation hrecorded
          have hrecorded : run.Recorded operation := hrecorded
          rw [RunRecord.Recorded, hstore, hplan] at hrecorded
          exact hidle.unrecorded operation hrecorded }
    minted_once := hminted ▸ h.minted_once
    executed_once := hexecuted ▸ h.executed_once
    counted := by
      show run.adapter.callCount = (executions (sys.history ++ observations)).length
      rw [hexecuted, hquiet.callCount, h.counted]
    versions := by
      show run.resourceVersionAtProposal ≤ run.resourceVersionNow
      rw [hquiet.resourceVersionAtProposal, hquiet.resourceVersionNow]
      exact h.versions
    drifted := by
      intro hdrift
      show run.resourceVersionNow ≠ run.resourceVersionAtProposal
      rw [hquiet.resourceVersionAtProposal, hquiet.resourceVersionNow]
      exact h.drifted ((List.mem_append.mp hdrift).resolve_right hquiet.undrifted)
    executed := by
      intro operation capability params hmem
      show capability.Covers run.toRunPlan ∧ params = run.toRunPlan.parameters.toJsValue ∧
        run.resourceVersionNow = run.resourceVersionAtProposal
      rw [hplan, hquiet.resourceVersionAtProposal, hquiet.resourceVersionNow]
      exact h.executed operation capability params (hexecuted ▸ hmem)
    recorded := hrecorded
    requests := by
      intro c' stage' hstage'
      by_cases hc : c' = c
      · subst hc
        exact hstage stage' (by simpa using hstage')
      · exact (h.requests c' stage' (by simpa [hc] using hstage')).mono hplan hquiet.store
    approved := by
      -- the row of the approval keeps its place before the rows appended since
      intro houtcome hnotParked
      have hbefore : sys.run.state ≠ .approvalRequired := by
        rcases hstate with hsame | hmoved
        · exact hsame ▸ hnotParked
        · exact fun hrequired => hmoved.1 (.inr hrequired)
      exact (h.approved (hplan ▸ houtcome) hbefore).append hplan hquiet.approval hquiet.ledger
        hexecuted }

omit [Host] in
/-- A turn that executes nothing is quiet. -/
theorem TurnFacts.quiet {sys : RunSystem} {turn : Turn} (h : TurnFacts sys.run turn)
    (hminted : turn.minted = none) (hexecuted : executions turn.observations = []) :
    sys.Quiet turn.run turn.observations where
  plan := h.same.plan
  resourceVersionAtProposal := h.same.resourceVersionAtProposal
  resourceVersionNow := h.same.resourceVersionNow
  approval := h.same.approval
  callCount := by
    rcases h.executed with hnone | ⟨capability, hexecutes⟩
    -- the adapter counts what the turn hands it
    · exact hnone.2
    · rw [hexecutes.executions] at hexecuted
      cases hexecuted
  ledger := by
    obtain ⟨rows, hrows, -⟩ := h.ledger
    exact ⟨rows, hrows⟩
  store := by
    rintro ⟨operation, hoperation⟩
    refine ⟨operation, ?_⟩
    rw [RunRecord.Recorded, h.store, h.same.plan]
    exact hoperation
  minted := mintedCapabilities_of_minted_eq_none hminted
  executed := hexecuted
  undrifted := h.undrifted

/-- A later call of a run executes nothing: its operation is on record. -/
theorem RunSystem.Sound.recall {sys : RunSystem} (h : sys.Sound) (c : RequestId)
    (registry : CapabilityRegistry) (capability : Capability) (reads : CallReads)
    (hconcluded : sys.run.state.Concluded) :
    (sys.enter c (executeForRun registry sys.run capability reads)).Sound := by
  have hfacts := executeForRun_facts registry sys.run capability reads
  have hminted := executeForRun_minted registry sys.run capability reads
  generalize executeForRun registry sys.run capability reads = turn at hfacts hminted
  obtain ⟨operation, hoperation⟩ := h.recorded hconcluded
  -- the key is taken, so this call does not reach the adapter
  have hexecuted : executions turn.observations = [] := by
    rcases hfacts.executed with hnone | ⟨parsed, hexecutes⟩
    · exact hnone.1
    · exact absurd hoperation (hexecutes.new operation)
  have hquiet := hfacts.quiet hminted hexecuted
  refine h.quiet hquiet hfacts.stage (.inl hfacts.same.state) (fun hparked => ?_) fun _ =>
    hquiet.store ⟨operation, hoperation⟩
  rcases hparked with hstate | hstate
  · rw [hstate] at hconcluded
    exact hconcluded.elim
  · rw [hstate] at hconcluded
    exact hconcluded.elim

/-- A run about to make its first call. -/
structure RunSystem.Ready (sys : RunSystem) (run : RunRecord) : Prop where
  pinned : run.Pinned
  allowed : run.policyVerdict.outcome ≠ .deny
  state : run.state = .authorized
  clean : mintedCapabilities sys.history = [] ∧ executions sys.history = []
  counted : run.adapter.callCount = 0
  versions : run.resourceVersionAtProposal ≤ run.resourceVersionNow
  drifted : .driftSimulated ∈ sys.history →
    run.resourceVersionNow ≠ run.resourceVersionAtProposal
  requests : ∀ c stage, sys.requests c = some stage → stage.Sound run
  approved : run.policyVerdict.outcome = .requireApproval →
    (∃ approval, run.approval = some approval ∧ approval.Approves run.toRunPlan) ∧
      ∃ before row, run.ledger.entries = before ++ [row] ∧ ApprovalRow row run.proposalHash ∧
        ∀ entry ∈ before, entry.type ≠ .executionStarted

/-- The first call of a run keeps the invariant. -/
theorem RunSystem.Ready.first {sys : RunSystem} {run : RunRecord} (h : sys.Ready run)
    {turn : Turn} (c : RequestId) (hfacts : TurnFacts run turn) : (sys.enter c turn).Sound := by
  have hplan : turn.run.toRunPlan = run.toRunPlan := hfacts.same.plan
  have hstate : turn.run.state = .authorized := hfacts.same.state.trans h.state
  have hexecutions : executions (sys.enter c turn).history = executions turn.observations := by
    simp [RunSystem.enter, h.clean.2]
  have hminted : mintedCapabilities (sys.enter c turn).history =
      mintedCapabilities turn.observations := by
    simp [RunSystem.enter, h.clean.1]
  have hexecuted_once : (executions turn.observations).length ≤ 1 := by
    rcases hfacts.executed with hnone | ⟨capability, hexecutes⟩
    · simp [hnone.1]
    · simp [hexecutes.executions]
  exact {
    pinned := by
      show turn.run.Pinned
      rw [hplan]
      exact h.pinned
    denied := fun houtcome => absurd (hplan ▸ houtcome) h.allowed
    parked := by
      intro hparked
      have hparked : turn.run.state.Parked := hparked
      rw [hstate] at hparked
      rcases hparked with hdenied | hrequired
      · cases hdenied
      · cases hrequired
    minted_once := hminted ▸ hfacts.minted_once
    executed_once := hexecutions ▸ hexecuted_once
    counted := by
      -- the turn invokes `execute` once and counts it, or does neither
      rw [hexecutions]
      rcases hfacts.executed with hnone | ⟨capability, hexecutes⟩
      · rw [hnone.1]
        exact hnone.2.trans h.counted
      · rw [hexecutes.executions]
        exact hexecutes.callCount.trans (congrArg (· + 1) h.counted)
    versions := by
      show turn.run.resourceVersionAtProposal ≤ turn.run.resourceVersionNow
      rw [hfacts.same.resourceVersionAtProposal, hfacts.same.resourceVersionNow]
      exact h.versions
    drifted := by
      intro hdrift
      show turn.run.resourceVersionNow ≠ turn.run.resourceVersionAtProposal
      rw [hfacts.same.resourceVersionAtProposal, hfacts.same.resourceVersionNow]
      exact h.drifted ((List.mem_append.mp hdrift).resolve_right hfacts.undrifted)
    executed := by
      intro operation capability params hmem
      rw [hexecutions] at hmem
      show capability.Covers turn.run.toRunPlan ∧
        params = turn.run.toRunPlan.parameters.toJsValue ∧
        turn.run.resourceVersionNow = turn.run.resourceVersionAtProposal
      rw [hplan, hfacts.same.resourceVersionAtProposal, hfacts.same.resourceVersionNow]
      rcases hfacts.executed with hnone | ⟨parsed, hexecutes⟩
      · rw [hnone.1] at hmem
        cases hmem
      · rw [hexecutes.executions] at hmem
        cases List.mem_singleton.mp hmem
        exact ⟨hexecutes.covers, rfl, hexecutes.versions⟩
    recorded := by
      intro hconcluded
      have hauthorized : turn.run.state.Concluded := hconcluded
      rw [hstate] at hauthorized
      exact hauthorized.elim
    requests := by
      intro c' stage' hstage'
      by_cases hc : c' = c
      · subst hc
        exact hfacts.stage stage' (by simpa [RunSystem.enter] using hstage')
      · refine (h.requests c' stage' (by simpa [RunSystem.enter, hc] using hstage')).mono hplan ?_
        rintro ⟨operation, hoperation⟩
        refine ⟨operation, ?_⟩
        show turn.run.Recorded operation
        rw [RunRecord.Recorded, hfacts.store, hplan]
        exact hoperation
    approved := by
      -- no row of an execution stood in the ledger when the turn began
      intro houtcome _
      obtain ⟨⟨approval, happroval, happroves⟩, before, row, hentries, hrow, hbefore⟩ :=
        h.approved (hplan ▸ houtcome)
      obtain ⟨rows, hrows, hstarted⟩ := hfacts.ledger
      refine ⟨⟨approval, hfacts.same.approval.trans happroval, hplan ▸ happroves⟩, before, row, rows,
        ?_, hplan ▸ hrow, hbefore, fun hne => hstarted (hexecutions ▸ hne)⟩
      show turn.run.ledger.entries = before ++ row :: rows
      rw [hrows, hentries]
      simp }

/-- A new run that makes no call is sound. -/
private theorem RunSystem.Sound.answered {old run : RunRecord} (registry : CapabilityRegistry)
    (c : RequestId) (hold : NewRun old) (hrun : run = { old with state := run.state })
    (hdenied : run.policyVerdict.outcome = .deny → run.state = .denied)
    (hparked : run.state.Parked)
    (hrequired : run.policyVerdict.outcome = .requireApproval → run.state = .approvalRequired) :
    (RunSystem.enter { run := old } c (.finish registry run)).Sound := by
  have hadapter : run.adapter = {} := by rw [hrun]; exact hold.adapter
  -- everything but the state is as in the new run
  exact {
    pinned := by
      show run.Pinned
      rw [hrun]
      exact hold.pinned
    denied := hdenied
    parked := by
      intro _
      refine ⟨rfl, rfl, fun c' => ?_, ?_, fun operation => ?_⟩
      · by_cases hc : c' = c <;> simp [RunSystem.enter, hc, Turn.finish, Turn.stage]
      · show ∀ entry ∈ run.ledger.entries, entry.type ≠ .executionStarted
        rw [hrun]
        exact hold.unstarted
      · show ¬ run.Recorded operation
        rw [hrun]
        exact hold.unrecorded operation
    minted_once := Nat.zero_le 1
    executed_once := Nat.zero_le 1
    counted := congrArg CountingAdapter.callCount hadapter
    versions := by
      show run.resourceVersionAtProposal ≤ run.resourceVersionNow
      rw [hrun]
      exact hold.versions.ge
    drifted := fun h => by cases List.mem_singleton.mp h
    executed := fun _ _ _ h => by cases h
    recorded := by
      intro hconcluded
      have hconcluded : run.state.Concluded := hconcluded
      rcases hparked with hstate | hstate
      · rw [hstate] at hconcluded
        exact hconcluded.elim
      · rw [hstate] at hconcluded
        exact hconcluded.elim
    requests := by
      intro c' stage hstage
      by_cases hc : c' = c
      · subst hc
        simp [RunSystem.enter, Turn.finish, Turn.stage] at hstage
      · simp [RunSystem.enter, hc] at hstage
    approved := fun houtcome hstate => absurd (hrequired houtcome) hstate }

/-- A new run is sound. -/
theorem RunSystem.Sound.born {model : ModelAdapter} {sys : RunSystem} (h : Born model sys) :
    sys.Sound := by
  cases h with
  | created scenarioId draw registry run c hnew =>
    have hrun := proposeRun_eq_ok hnew
    have hcase := followVerdict_cases registry draw.authorize hrun.state
    generalize followVerdict registry run draw.authorize = turn at hcase
    -- by what the policy has decided
    cases hcase with
    | denied houtcome =>
      refine .answered _ c hrun rfl (fun _ => rfl) (.inl rfl) ?_
      exact fun hrequired => by cases houtcome.symm.trans hrequired
    | parked houtcome =>
      refine .answered _ c hrun rfl (fun hdeny => ?_) (.inr rfl) fun _ => rfl
      cases houtcome.symm.trans hdeny
    | allowed houtcome =>
      refine RunSystem.Ready.first ?_ c (authorizeAndExecute_facts _ _ _ _)
      exact {
        pinned := hrun.pinned
        allowed := fun hdeny => by cases houtcome.symm.trans hdeny
        state := rfl
        clean := ⟨rfl, rfl⟩
        counted := congrArg CountingAdapter.callCount hrun.adapter
        versions := hrun.versions.ge
        drifted := fun h => by cases h
        requests := fun _ _ h => by cases h
        approved := fun hrequired => by cases houtcome.symm.trans hrequired }

/-! ## Steps -/

omit [Host] in
/-- The inner `execute` of an adapter is not a call of `execute`. -/
theorem CountingAdapter.execute_callCount [Host] {kind : FakeAdapterKind}
    {adapter adapter' : CountingAdapter} {operation : AdapterOperation} {capability : Capability}
    {params : JsValue} {draw : AdapterDraw} {outcome : Except AdapterError JsValue}
    (h : adapter.execute kind operation capability params draw = (adapter', outcome)) :
    adapter'.callCount = adapter.callCount := by
  rw [CountingAdapter.execute] at h
  split at h <;> cases h <;> rfl

omit [Host] in
/-- A run whose result followed an edge was in a call, and is past it. -/
theorem ResultEdge.moved {state state' : RunState} {result : ExecuteActionResult}
    (h : ResultEdge state result state') : ¬ state.Parked ∧ ¬ state'.Parked := by
  cases h <;> simp [RunState.Parked]

omit [Host] in
/-- It concludes only where the result does. -/
theorem ResultEdge.concludes {state state' : RunState} {result : ExecuteActionResult}
    (h : ResultEdge state result state') (hconcluded : state'.Concluded) :
    (Settled.returned result).Concludes := by
  cases h with
  | verified | reconciled | unknown | inconclusive => trivial
  | stale | failed => exact hconcluded.elim

/-- The turn of an approval. -/
private theorem RunSystem.Sound.approve {sys : RunSystem} (h : sys.Sound) (c : RequestId)
    {registry : CapabilityRegistry} {draw : ApproveDraw} {turn : Turn}
    (hturn : approveRun registry sys.run draw = .ok turn) : (sys.enter c turn).Sound := by
  cases approveRun_cases h.pinned hturn with
  | approved consumed row hstate happroves hrow =>
    have hidle := h.parked (.inr hstate)
    -- nothing has happened to the run while it was parked
    refine RunSystem.Ready.first ?_ c (authorizeAndExecute_facts _ _ _ _)
    exact {
      pinned := h.pinned
      allowed := fun hdeny => by cases hstate.symm.trans (h.denied hdeny)
      state := rfl
      clean := ⟨hidle.minted, hidle.executed⟩
      counted := by
        show sys.run.adapter.callCount = 0
        rw [h.counted, hidle.executed, List.length_nil]
      versions := h.versions
      drifted := h.drifted
      requests := fun c stage hstage => (h.requests c stage hstage).mono rfl id
      approved := fun _ => ⟨⟨consumed, rfl, happroves⟩, sys.run.ledger.entries, row, rfl, hrow,
        hidle.unstarted⟩ }

/-- Drift comes before anything is minted or executed. -/
private theorem RunSystem.Sound.drift {sys : RunSystem} (h : sys.Sound) (c : RequestId)
    {now : Instant} {run : RunRecord} (hdrift : simulateDrift sys.run now = .ok run) :
    (sys.change run c none none [.driftSimulated, .responded (.ok ())]).Sound := by
  obtain ⟨hstate, rfl⟩ := simulateDrift_eq_ok hdrift
  have hidle := h.parked (.inr hstate)
  -- the resource can only drift before anything is minted
  have hexecuted := hidle.executed
  exact {
    pinned := h.pinned
    denied := h.denied
    parked := by
      intro _
      refine ⟨by simpa using hidle.minted, by simpa using hexecuted, fun c' => ?_, hidle.unstarted,
        hidle.unrecorded⟩
      by_cases hc : c' = c <;> simp [hc, hidle.requests]
    minted_once := by simp [hidle.minted]
    executed_once := by simp [hexecuted]
    counted := by simpa [hexecuted] using h.counted
    versions := Nat.le_succ_of_le h.versions
    drifted := fun _ => (Nat.lt_succ_of_le h.versions).ne'
    executed := by simp [hexecuted]
    recorded := by
      intro hconcluded
      have hconcluded : sys.run.state.Concluded := hconcluded
      rw [hstate] at hconcluded
      exact hconcluded.elim
    requests := by
      intro c' stage hstage
      by_cases hc : c' = c
      · simp [hc] at hstage
      · simp [hc, hidle.requests] at hstage
    approved := fun _ hnotParked => absurd hstate hnotParked }

/-- The end of a call's wait. -/
private theorem RunSystem.Sound.wake {sys : RunSystem} (h : sys.Sound) {c : RequestId}
    {waiting : Waiting} {wakeup : Wakeup} {registry : CapabilityRegistry} {stamp : Stamp}
    {shared : Shared} {settled : Settled}
    (hrequest : sys.requests c = some (.waiting waiting))
    (hresume : waiting.resume wakeup ⟨registry, sys.run.operationStore, sys.run.ledger⟩ stamp =
      some (shared, settled)) :
    (sys.change { sys.run with operationStore := shared.operationStore, ledger := shared.ledger } c
      (some (.settled settled)) (sys.promises c) []).Sound := by
  have hfacts : SettlementFacts _ waiting shared settled := (resume_cases hresume).facts
  obtain ⟨hoperation, hreconciles⟩ := h.requests c _ hrequest
  have hkey : waiting.idempotencyKey = sys.run.idempotencyKey :=
    congrArg AdapterOperation.idempotencyKey hoperation
  have hstore : (∃ operation, sys.run.Recorded operation) →
      ∃ operation, shared.operationStore.byIdempotencyKey sys.run.idempotencyKey =
        some operation := by
    rintro ⟨operation, hrecorded⟩
    exact hfacts.store _ operation hrecorded
  refine h.quiet ⟨rfl, rfl, rfl, rfl, rfl, hfacts.ledger, hstore, rfl, rfl, by simp⟩ ?_ (.inl rfl)
    (fun hparked => by cases ((h.parked hparked).requests c).symm.trans hrequest)
    fun hconcluded => hstore (h.recorded hconcluded)
  intro stage hstage
  obtain rfl := Option.some.inj hstage
  intro hconcludes
  -- a lookup is about a record, and a race leaves one
  rcases hfacts.concludes hconcludes with hlookup | ⟨operation, hrecorded⟩
  · exact hstore (hreconciles hlookup)
  · exact ⟨operation, (congrArg shared.operationStore.byIdempotencyKey hkey).symm.trans hrecorded⟩

/-- The end of a request. -/
private theorem RunSystem.Sound.finish {sys : RunSystem} (h : sys.Sound) {c : RequestId}
    {settled : Settled} {now : Instant} {run : RunRecord} {outcome : Except RequestError Unit}
    (hrequest : sys.requests c = some (.settled settled))
    (hfinish : finishExecution sys.run settled now = (run, outcome)) :
    (sys.change run c none (sys.promises c) [.responded outcome]).Sound := by
  have hconcludes := h.requests c _ hrequest
  cases finishExecution_cases hfinish with
  | threw | illegal =>
    exact h.quiet ⟨rfl, rfl, rfl, rfl, rfl, ⟨[], by simp⟩, id, rfl, rfl, by simp⟩
      (fun _ h => by cases h) (.inl rfl) (fun hparked => ⟨rfl, rfl, (h.parked hparked).unstarted⟩)
      h.recorded
  | finished result state execution lastActionAt hresult =>
    have hstate := applyExecutionResult_eq_ok hresult
    -- a move to a concluded state comes with a record
    refine h.quiet ⟨rfl, rfl, rfl, rfl, rfl, ⟨[], by simp⟩, id, rfl, rfl, by simp⟩
      (fun _ h => by cases h) ?_ (fun hparked => ⟨rfl, rfl, (h.parked hparked).unstarted⟩) ?_
    · rcases hstate with hsame | hedge
      · exact .inl hsame
      · exact .inr hedge.moved
    · intro hconcluded
      rcases hstate with hsame | hedge
      · exact h.recorded (hsame ▸ hconcluded)
      · exact hconcludes (hedge.concludes hconcluded)

/-- One step of a run keeps the invariant. -/
theorem RunSystem.Sound.step {C : RunSystem → CallReads → Prop} {sys sys' : RunSystem}
    (h : sys.Sound) (hstep : RunStep C sys sys') : sys'.Sound := by
  cases hstep with
  | refused c error hunused hlegal =>
    exact h.quiet ⟨rfl, rfl, rfl, rfl, rfl, ⟨[], by simp⟩, id, rfl, rfl, by simp⟩
      (fun _ h => by cases h) (.inl rfl) (fun hparked => ⟨rfl, rfl, (h.parked hparked).unstarted⟩)
      h.recorded
  | approved c registry draw turn hunused hturn => exact h.approve c hturn
  | replayed c registry reads turn hunused hturn =>
    obtain ⟨hstate, capability, -, rfl⟩ := replayRun_eq_ok hturn
    exact h.recall c registry capability reads (by rw [hstate]; trivial)
  | reconciled c registry reads turn hunused hreads hturn =>
    obtain ⟨hstate, capability, -, rfl⟩ := reconcileRun_eq_ok hturn
    refine h.recall c registry capability reads ?_
    rcases hstate with hstate | hstate <;> rw [hstate] <;> trivial
  | drifted c now run hunused hdrift => exact h.drift c hdrift
  | checked c stamp run result hunused hverify =>
    obtain ⟨row, htype, rfl⟩ := verifyRunLedger_eq_ok hverify
    refine h.quiet ⟨rfl, rfl, rfl, rfl, rfl, ⟨[row], rfl⟩, id, rfl, rfl, by simp⟩
      (fun _ h => by cases h) (.inl rfl) (fun hparked => ⟨rfl, rfl, fun entry hentry => ?_⟩) h.recorded
    rcases List.mem_append.mp hentry with hold | hnew
    -- the checker's own row is none of an execution
    · exact (h.parked hparked).unstarted entry hold
    · rw [List.mem_singleton.mp hnew, htype]
      decide
  | executed c operation capability params draw adapter outcome hpromise hexecute =>
    exact h.quiet ⟨rfl, rfl, rfl, rfl, CountingAdapter.execute_callCount hexecute,
      ⟨[], by simp⟩, id, rfl, rfl, by simp⟩ (h.requests c) (.inl rfl)
      (fun hparked => ⟨(h.parked hparked).requests c, rfl, (h.parked hparked).unstarted⟩) h.recorded
  | woke c waiting wakeup registry stamp shared settled hrequest hwakes hresume =>
    exact h.wake hrequest hresume
  | resumed c settled now run outcome hrequest hfinish => exact h.finish hrequest hfinish

/-! ## Authority over the server -/

/-- What authorizes an invocation of `adapter.execute` with these arguments: the policy,
    or a consumed approval that hashes exactly them and whose row stands before every
    row of an execution. -/
inductive RunRecord.Authorizes (run : RunRecord) (capability : Capability) (params : JsValue) :
    Prop
  | policyAllow (houtcome : run.policyVerdict.outcome = .allow)
  | approved (approval : Approval) (before after : List AuditLedgerEntry) (row : AuditLedgerEntry)
      (houtcome : run.policyVerdict.outcome = .requireApproval)
      (happroval : run.approval = some approval)
      (hconsumed : approval.status = .consumed)
      (hhash : computeProposalHash
        { schemaVersion := schemaVersion
          actionType := capability.actionType.toJs
          resourceId := capability.resourceId
          parameters := params
          evidenceRefs := run.evidenceRefs } = .ok approval.proposalHash)
      (hledger : run.ledger.entries = before ++ row :: after)
      (hrow : ApprovalRow row approval.proposalHash)
      (hbefore : ∀ entry ∈ before, entry.type ≠ .executionStarted)
      (hstarted : ∃ started ∈ after, started.type = .executionStarted)

/-- What the server did on a run, it did once and with authority. -/
structure Server.Authority (s : Server) (ref : RunRef) (run : RunRecord) : Prop where
  minted_once : (mintedCapabilities (s.history ref)).length ≤ 1
  executed_once : (executions (s.history ref)).length ≤ 1
  /-- the adapter counts the same calls -/
  counted : run.adapter.callCount = (executions (s.history ref)).length
  authorized : ∀ operation capability params,
    .executeInvoked operation capability params ∈ s.history ref → run.Authorizes capability params
  denied : run.policyVerdict.outcome = .deny → executions (s.history ref) = []
  drifted : .driftSimulated ∈ s.history ref → executions (s.history ref) = []

omit [Host] in
theorem mem_executions {history : List RunObservation} {operation : AdapterOperation}
    {capability : Capability} {params : JsValue} :
    (operation, capability, params) ∈ executions history ↔
      .executeInvoked operation capability params ∈ history := by
  rw [executions, List.mem_filterMap]
  constructor
  · rintro ⟨observation, hmem, hexecution⟩
    cases observation <;> cases hexecution
    exact hmem
  · intro hmem
    exact ⟨_, hmem, rfl⟩

/-- An execution of a sound run has its authority. -/
theorem RunSystem.Sound.authorizes {sys : RunSystem} (h : sys.Sound)
    {operation : AdapterOperation} {capability : Capability} {params : JsValue}
    (hexecuted : (operation, capability, params) ∈ executions sys.history) :
    sys.run.Authorizes capability params := by
  have hne : executions sys.history ≠ [] := List.ne_nil_of_mem hexecuted
  obtain ⟨hcovers, rfl, -⟩ := h.executed operation capability params hexecuted
  cases houtcome : sys.run.policyVerdict.outcome with
  | allow => exact .policyAllow houtcome
  | deny => exact absurd (h.parked (.inl (h.denied houtcome))).executed hne
  | requireApproval =>
    have hstate : sys.run.state ≠ .approvalRequired := by
      intro hrequired
      exact hne (h.parked (.inr hrequired)).executed
    obtain ⟨⟨approval, happroval, happroves⟩, before, row, after, hentries, hrow, hbefore,
      hstarted⟩ := h.approved houtcome hstate
    refine .approved approval before after row houtcome happroval happroves.status ?_ hentries
      (happroves.proposalHash ▸ hrow) hbefore (hstarted hne)
    rw [hcovers.actionType, hcovers.resourceId, happroves.proposalHash]
    exact h.pinned

/-- Every run of a reachable server is sound, with no condition on its reconciliations. -/
theorem Server.run_sound {model : ModelAdapter} {events : List ServerEvent} {s : Server}
    (hrun : Transition.run (Server.step model) {} events = some s) {ref : RunRef}
    {sys : RunSystem} (hsystem : s.system ref = some sys) : sys.Sound :=
  run_system_invariant (fun _ hborn => .born hborn) (fun _ _ hsound hstep => hsound.step hstep)
    (meets_true {} events) hrun hsystem

/-- Every run of every reachable server is executed at most once, and with authority. -/
theorem Server.orchestrated_authority {model : ModelAdapter} {events : List ServerEvent}
    {s : Server} (hrun : Transition.run (Server.step model) {} events = some s) {ref : RunRef}
    {run : RunRecord} (hrecord : s.state.records ref = some run) : s.Authority ref run := by
  have hsystem : s.system ref = some (s.view ref run) := by
    rw [system, hrecord]
    rfl
  have h : (s.view ref run).Sound := run_sound hrun hsystem
  exact {
    minted_once := h.minted_once
    executed_once := h.executed_once
    counted := h.counted
    authorized := fun operation capability params hmem => h.authorizes (mem_executions.mpr hmem)
    denied := fun houtcome => (h.parked (.inl (h.denied houtcome))).executed
    drifted := by
      intro hdrift
      rw [List.eq_nil_iff_forall_not_mem]
      rintro ⟨operation, capability, params⟩ hmem
      exact h.drifted hdrift (h.executed operation capability params hmem).2.2 }

end

namespace Sample

section
attribute [local instance] node

/-- What authorizing and starting a call draws. -/
def authorizeDraw : AuthorizeDraw where
  mint := ⟨js "cap_000001", js "nonce_000001", now⟩
  stamp := stamp "evt_minted"
  reads := reads "evt_started"
  lastActionAt := now

/-- What a new run draws. -/
def createDraw : CreateDraw where
  runId := js "run_000001"
  resourceId := js "res_000001"
  operationId := js "op_000001"
  idempotencyKey := js "idem_000001"
  proposalStamp := stamp "evt_proposed"
  policyNow := now
  policyStamp := stamp "evt_decided"
  createdAt := now
  lastActionAt := now
  authorize := authorizeDraw

/-- A message that needs an approval, up to the call it is sent in. -/
def approvedMessage : List ServerEvent :=
  [.request (.createRun (js "approval") createDraw),
    .request (.approveRun (js "run_000001")
      { approvalId := js "appr_000001"
        expiryNow := now
        approvedAt := now
        consumedAt := now
        stamp := stamp "evt_consumed"
        lastActionAt := now
        authorize := authorizeDraw })]

/-- The server takes both requests, and the run is in its one call. -/
theorem approvedMessage_run :
    ∃ s run, Transition.run (Server.step FakeModelAdapter.propose) {} approvedMessage = some s ∧
      s.state.records 0 = some run ∧ run.adapter.callCount = 1 ∧
      run.ledger.entries.length = 5 := by
  have hrun : ∃ s ∈ Transition.run (Server.step FakeModelAdapter.propose) {} approvedMessage,
      ∃ run ∈ s.state.records 0, run.adapter.callCount = 1 ∧ run.ledger.entries.length = 5 := by
    decide +kernel
  obtain ⟨s, hs, run, hrecord, hcounts⟩ := hrun
  exact ⟨s, run, hs, hrecord, hcounts⟩

theorem approvedMessage_authority :
    ∃ s run, Transition.run (Server.step FakeModelAdapter.propose) {} approvedMessage = some s ∧
      s.state.records 0 = some run ∧ run.adapter.callCount = 1 ∧ s.Authority 0 run := by
  obtain ⟨s, run, hs, hrecord, hcount, -⟩ := approvedMessage_run
  exact ⟨s, run, hs, hrecord, hcount, Server.orchestrated_authority hs hrecord⟩

end

end Sample

end ActionHarbor
