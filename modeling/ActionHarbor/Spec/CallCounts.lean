import ActionHarbor.Model.Views
import ActionHarbor.Spec.RunLife

/-!
# What the call count tells

A view shows the state of a run beside the number of times its adapter was called. In every
reachable state the one tells the other: nothing was called where nothing was authorized or
the resource has drifted, and every outcome, known or not, is that of exactly one call.

## Key results

- `RunSystem.Accounted.step`: one step of a run keeps its account
- `Server.calls_told`: the count a state stands for, and what a drift stops
-/

namespace ActionHarbor

/-- The counts a state can stand for. An authorized run may be about to call, have called,
    or have been refused. -/
def RunState.adapterCalls : RunState → List Nat
  | .denied | .approvalRequired | .stale => [0]
  | .authorized => [0, 1]
  | .verified | .unknownOutcome | .reconciliationRequired => [1]
  | _ => []

/-- What a view of the run tells of its adapter. -/
structure RunRecord.TellsCalls (run : RunRecord) : Prop where
  count : (toRunView run).adapterCallCount ∈ run.state.adapterCalls
  /-- only a drift makes a run stale -/
  stale : run.state = .stale → run.drifted = true
  /-- and it stops every call -/
  drifted : run.drifted = true → (toRunView run).adapterCallCount = 0 ∧
    (run.state = .approvalRequired ∨ run.state = .authorized ∨ run.state = .stale)

/-! ## The account of a run -/

/-- What a run owes to a call of its adapter, or to a drift. -/
structure RunRecord.Accounted (run : RunRecord) : Prop where
  /-- an operation on record without a call was refused, and is recorded as failed -/
  recorded : ∀ operation, run.Recorded operation → operation.state ≠ .failed →
    0 < run.adapter.callCount
  concluded : run.state.Concluded → 0 < run.adapter.callCount
  stale : run.state = .stale → run.drifted = true
  denied : run.state = .denied → run.drifted = false
  versions : run.drifted = true ↔ run.resourceVersionNow ≠ run.resourceVersionAtProposal

/-- What a settled call owes to them. -/
structure Settled.Accounted (run : RunRecord) (settled : Settled) : Prop where
  concludes : settled.Concludes → 0 < run.adapter.callCount
  precondition : ∀ reasonCodes auditEvents,
    settled = .returned (.precondition reasonCodes auditEvents) → run.drifted = true

/-- What a request in flight owes to them. -/
def RequestStage.Accounted (run : RunRecord) : RequestStage → Prop
  | .waiting (.executing _) | .waiting (.lookingUp _) => 0 < run.adapter.callCount
  | .waiting (.refused _ _) => True
  | .settled outcome => outcome.Accounted run

/-- A run and its requests. -/
structure RunSystem.Accounted (sys : RunSystem) : Prop where
  run : sys.run.Accounted
  requests : ∀ c stage, sys.requests c = some stage → stage.Accounted sys.run

/-- Calls are only added, and a drift stays. -/
theorem RequestStage.Accounted.mono {run run' : RunRecord} {stage : RequestStage}
    (h : stage.Accounted run) (hcount : run.adapter.callCount ≤ run'.adapter.callCount)
    (hdrifted : run.drifted = true → run'.drifted = true) : stage.Accounted run' := by
  cases stage with
  | waiting waiting =>
    cases waiting with
    | executing | lookingUp => exact Nat.lt_of_lt_of_le h hcount
    | refused => trivial
  | settled settled =>
    exact ⟨fun hconcludes => Nat.lt_of_lt_of_le (h.concludes hconcludes) hcount,
      fun reasonCodes auditEvents heq => hdrifted (h.precondition reasonCodes auditEvents heq)⟩

/-- A run that keeps its status and its store. -/
theorem RunRecord.Accounted.same {run run' : RunRecord} (h : run.Accounted)
    (hsame : SameStatus run run') (hstore : run'.operationStore = run.operationStore)
    (hcount : run.adapter.callCount ≤ run'.adapter.callCount) : run'.Accounted where
  recorded operation hrecorded hstate := by
    rw [RunRecord.Recorded, hstore, hsame.plan] at hrecorded
    exact Nat.lt_of_lt_of_le (h.recorded operation hrecorded hstate) hcount
  concluded hconcluded := by
    rw [hsame.state] at hconcluded
    exact Nat.lt_of_lt_of_le (h.concluded hconcluded) hcount
  stale hstale := hsame.drifted.trans (h.stale (hsame.state.symm.trans hstale))
  denied hdenied := hsame.drifted.trans (h.denied (hsame.state.symm.trans hdenied))
  versions := by
    rw [hsame.drifted, hsame.resourceVersionNow, hsame.resourceVersionAtProposal]
    exact h.versions

/-- Write one request back. -/
theorem RunSystem.Accounted.change {sys : RunSystem} (h : sys.Accounted) {run : RunRecord}
    {c : RequestId} {stage : Option RequestStage} {promise : Option AdapterPromise}
    {observations : List RunObservation} (hrun : run.Accounted)
    (hcount : sys.run.adapter.callCount ≤ run.adapter.callCount)
    (hdrifted : sys.run.drifted = true → run.drifted = true)
    (hstage : ∀ stage', stage = some stage' → stage'.Accounted run) :
    (sys.change run c stage promise observations).Accounted where
  run := hrun
  requests c' stage' hrequest := by
    by_cases hc : c' = c
    · subst hc
      exact hstage stage' (by simpa using hrequest)
    · exact (h.requests c' stage' (by simpa [hc] using hrequest)).mono hcount hdrifted

section
variable [Host]

/-! ## Turns -/

omit [Host] in
/-- A turn calls the adapter or leaves the count. -/
theorem TurnFacts.callCount_le {run : RunRecord} {turn : Turn} (h : TurnFacts run turn) :
    run.adapter.callCount ≤ turn.run.adapter.callCount := by
  rcases h.executed with ⟨-, hcount⟩ | ⟨capability, hexecutes⟩
  · exact hcount.ge
  · exact hexecutes.callCount ▸ Nat.le_succ _

omit [Host] in
/-- So the run is accounted for behind it. -/
theorem TurnFacts.accounted {run : RunRecord} {turn : Turn} (h : TurnFacts run turn)
    (hrun : run.Accounted) : turn.run.Accounted :=
  hrun.same h.same h.store h.callCount_le

/-- A call of the run is refused for its preconditions only after a drift: the capability it
    presents has been checked to be for the run's own plan. -/
theorem RunRecord.Accounted.drifted_of_precondition {run : RunRecord} (h : run.Accounted)
    {capability parsed : Capability} {postcondition : PostconditionExpectation} {now : Instant}
    {reasonCodes : List PreconditionRejectionReason}
    (hguard : parseAndValidateCapability (run.callInput capability postcondition).capabilityRaw
      (run.callInput capability postcondition).request now = .ok parsed)
    (hprecondition : checkPreconditions parsed
      (run.callInput capability postcondition).precondition = .error reasonCodes) :
    run.drifted = true := by
  obtain ⟨-, -, -, hhash⟩ := scope_of_parseAndValidateCapability hguard
  have hplan : parsed.proposalHash = run.proposalHash := hhash
  refine h.versions.mpr fun hversions => ?_
  simp [checkPreconditions, RunRecord.callInput, RunRecord.precondition, hplan, hversions]
    at hprecondition

/-- What a call leaves in flight is accounted for. -/
theorem executeForRun_accounted (registry : CapabilityRegistry) {run : RunRecord}
    (capability : Capability) (reads : CallReads) (h : run.Accounted) :
    ∀ stage, (executeForRun registry run capability reads).stage = some stage →
      stage.Accounted (executeForRun registry run capability reads).run := by
  have hcase := executeForRun_cases registry run capability reads
  generalize executeForRun registry run capability reads = turn at hcase
  intro stage hstage
  cases hcase with
  | unwired => cases hstage
  | called postcondition shared progress hpost houtcome =>
    cases houtcome with
    | capabilityRefused | unhashableParams | conflict | replayedFailure | registryRefused =>
      obtain rfl := Option.some.inj hstage
      exact ⟨False.elim, fun _ _ heq => by cases heq⟩
    | preconditionFailed parsed reasonCodes entry hguard hprecondition =>
      obtain rfl := Option.some.inj hstage
      exact ⟨False.elim, fun _ _ _ => h.drifted_of_precondition hguard hprecondition⟩
    | replayed parsed prior entry hguards hhash hrecord hstate =>
      obtain rfl := Option.some.inj hstage
      refine ⟨fun _ => h.recorded prior hrecord ?_, fun _ _ heq => by cases heq⟩
      rw [hstate]
      decide
    | lookingUp parsed prior hguards hhash hrecord hnotReplayed hnotFailed =>
      obtain rfl := Option.some.inj hstage
      exact h.recorded prior hrecord hnotFailed
    | entered parsed payloadHash registry' entry =>
      rw [invokeAdapter] at hstage ⊢
      split at hstage
      · obtain rfl := Option.some.inj hstage
        trivial
      · -- the adapter counts the call it is handed
        obtain rfl := Option.some.inj hstage
        exact Nat.succ_pos _

/-- Minting first changes nothing of this. -/
theorem authorizeAndExecute_accounted (registry : CapabilityRegistry) {run : RunRecord}
    (evidence : AuthorizationEvidence) (draw : AuthorizeDraw) (h : run.Accounted) :
    ∀ stage, (authorizeAndExecute registry run evidence draw).stage = some stage →
      stage.Accounted (authorizeAndExecute registry run evidence draw).run := by
  have hcase := authorizeAndExecute_cases registry run evidence draw
  generalize authorizeAndExecute registry run evidence draw = turn at hcase
  cases hcase with
  | unminted => exact fun stage hstage => by cases hstage
  | minted capability entry =>
    exact executeForRun_accounted _ capability draw.reads
      (h.same ⟨rfl, rfl, rfl, rfl, rfl, rfl⟩ rfl le_rfl)

omit [Host] in
/-- Write a turn back. -/
private theorem RunSystem.Accounted.enter {sys : RunSystem} (h : sys.Accounted) (c : RequestId)
    {run : RunRecord} {turn : Turn} (hrun : run.Accounted) (hfacts : TurnFacts run turn)
    (hcount : run.adapter.callCount = sys.run.adapter.callCount)
    (hdrifted : run.drifted = sys.run.drifted)
    (hstage : ∀ stage, turn.stage = some stage → stage.Accounted turn.run) :
    (sys.enter c turn).Accounted :=
  h.change (hfacts.accounted hrun) (hcount ▸ hfacts.callCount_le)
    (fun h => hfacts.same.drifted.trans (hdrifted.trans h)) hstage

/-! ## Steps -/

/-- What the end of a wait records and answers was paid for while it waited. -/
theorem Settlement.accounted {run : RunRecord} {shared shared' : Shared} {waiting : Waiting}
    {wakeup : Wakeup} {settled : Settled} (h : Settlement shared waiting wakeup shared' settled)
    (hwaiting : RequestStage.Accounted run (.waiting waiting)) :
    settled.Accounted run ∧ (shared'.operationStore = shared.operationStore ∨
      ∃ record, shared'.operationStore = shared.operationStore.record record ∧
        (record.state ≠ .failed → 0 < run.adapter.callCount)) := by
  cases h with
  | verified _ _ receipt entry hreceives =>
    have hcalled : 0 < run.adapter.callCount := by cases hreceives <;> exact hwaiting
    exact ⟨⟨fun _ => hcalled, fun _ _ heq => by cases heq⟩, .inr ⟨_, rfl, fun _ => hcalled⟩⟩
  | timedOut call entry =>
    exact ⟨⟨fun _ => hwaiting, fun _ _ heq => by cases heq⟩, .inr ⟨_, rfl, fun _ => hwaiting⟩⟩
  | inconclusive => exact ⟨⟨fun _ => hwaiting, fun _ _ heq => by cases heq⟩, .inl rfl⟩
  | unverified | rejected | refusal =>
    exact ⟨⟨False.elim, fun _ _ heq => by cases heq⟩, .inr ⟨_, rfl, fun hnot => absurd rfl hnot⟩⟩
  | crashed | lookupMalformed | lookupRejected =>
    exact ⟨⟨False.elim, fun _ _ heq => by cases heq⟩, .inl rfl⟩

/-- The end of a wait. -/
private theorem RunSystem.Accounted.wake {sys : RunSystem} (h : sys.Accounted) {c : RequestId}
    {waiting : Waiting} {wakeup : Wakeup} {registry : CapabilityRegistry} {stamp : Stamp}
    {shared : Shared} {settled : Settled} (hrequest : sys.requests c = some (.waiting waiting))
    (hresume : waiting.resume wakeup ⟨registry, sys.run.operationStore, sys.run.ledger⟩ stamp =
      some (shared, settled)) :
    (sys.change { sys.run with operationStore := shared.operationStore, ledger := shared.ledger } c
      (some (.settled settled)) (sys.promises c) []).Accounted := by
  obtain ⟨hsettled, hstore⟩ := (resume_cases hresume).accounted (h.requests c _ hrequest)
  refine h.change { h.run with recorded := fun operation hrecorded hstate => ?_ } le_rfl id
    fun stage hstage => ?_
  · rcases hstore with hstore | ⟨record, hstore, hcalled⟩
    · refine h.run.recorded operation ?_ hstate
      rw [RunRecord.Recorded] at hrecorded ⊢
      rwa [hstore] at hrecorded
    · -- what is found under the key is the record just written or the one before
      have hfound : shared.operationStore.byIdempotencyKey sys.run.idempotencyKey =
        some operation := hrecorded
      rw [hstore, OperationStore.record] at hfound
      dsimp only at hfound
      by_cases hkey : sys.run.idempotencyKey = record.idempotencyKey
      · rw [hkey, Function.update_self] at hfound
        obtain rfl := Option.some.inj hfound
        exact hcalled hstate
      · rw [Function.update_of_ne hkey] at hfound
        exact h.run.recorded operation hfound hstate
  · obtain rfl := Option.some.inj hstage
    exact ⟨hsettled.concludes, hsettled.precondition⟩

/-- The end of a request: the state it moves on to is the one its result owes. -/
private theorem RunSystem.Accounted.finish {sys : RunSystem} (h : sys.Accounted) {c : RequestId}
    {settled : Settled} {now : Instant} {run : RunRecord} {outcome : Except RequestError Unit}
    (hrequest : sys.requests c = some (.settled settled))
    (hfinish : finishExecution sys.run settled now = (run, outcome)) :
    (sys.change run c none (sys.promises c) [.responded outcome]).Accounted := by
  have hsettled : settled.Accounted sys.run := h.requests c _ hrequest
  cases finishExecution_cases hfinish with
  | threw | illegal => exact h.change h.run le_rfl id fun _ h => by cases h
  | finished result state execution lastActionAt hresult =>
    refine h.change ?_ le_rfl id fun _ h => by cases h
    rcases applyExecutionResult_eq_ok hresult with rfl | hedge
    · exact ⟨h.run.recorded, h.run.concluded, h.run.stale, h.run.denied, h.run.versions⟩
    · refine ⟨h.run.recorded, fun hconcluded => ?_, fun hstale => ?_, fun hdenied => ?_,
        h.run.versions⟩
      · have hconcluded : state.Concluded := hconcluded
        refine hsettled.concludes ?_
        generalize sys.run.state = before at hedge
        cases hedge with
        | verified | reconciled | unknown | inconclusive => trivial
        | stale | failed => exact hconcluded.elim
      · obtain rfl : state = .stale := hstale
        generalize sys.run.state = before at hedge
        cases hedge with
        | stale reasonCodes auditEvents => exact hsettled.precondition reasonCodes auditEvents rfl
      · obtain rfl : state = .denied := hdenied
        generalize sys.run.state = before at hedge
        cases hedge

/-- A new run has called nothing and has not drifted. -/
theorem RunSystem.Accounted.born {model : ModelAdapter} {sys : RunSystem} (h : Born model sys) :
    sys.Accounted := by
  obtain ⟨scenarioId, draw, registry, run, c, hnew⟩ := h
  have hrun := proposeRun_eq_ok hnew
  obtain ⟨flow, action, more, -, -, hproposed⟩ := proposeRun_record hnew
  have hfresh : ∀ state : RunState, ¬ state.Concluded → state ≠ .stale →
      RunRecord.Accounted { run with state := state } := fun state hstate hstale =>
    { recorded := fun operation hrecorded => absurd hrecorded (hrun.unrecorded operation)
      concluded := fun hconcluded => absurd hconcluded hstate
      stale := fun h => absurd h hstale
      denied := fun _ => hproposed.drifted
      versions := by simp [hproposed.drifted, hrun.versions] }
  have hbase : RunSystem.Accounted { run := run } :=
    ⟨hfresh run.state (by rw [hrun.state]; exact id) (by rw [hrun.state]; decide),
      fun _ _ h => by cases h⟩
  have hcase := followVerdict_cases registry draw.authorize hrun.state
  generalize followVerdict registry run draw.authorize = turn at hcase
  cases hcase with
  | denied | parked =>
    exact hbase.change (hfresh _ id (by decide)) le_rfl id fun _ h => by cases h
  | allowed =>
    have hauthorized := hfresh .authorized id (by decide)
    exact hbase.enter c hauthorized (authorizeAndExecute_facts _ _ _ _) rfl rfl
      (authorizeAndExecute_accounted _ _ _ hauthorized)

/-- One step of a run keeps its account. -/
theorem RunSystem.Accounted.step {C : RunSystem → CallReads → Prop} {sys sys' : RunSystem}
    (h : sys.Accounted) (hsound : sys.Sound) (hstep : RunStep C sys sys') : sys'.Accounted := by
  have hagain : ∀ (c : RequestId) (registry : CapabilityRegistry) (capability : Capability)
      (reads : CallReads),
      (sys.enter c (executeForRun registry sys.run capability reads)).Accounted :=
    fun c registry capability reads => h.enter c h.run (executeForRun_facts _ _ _ _) rfl rfl
      (executeForRun_accounted _ _ _ h.run)
  cases hstep with
  | refused => exact h.change h.run le_rfl id fun _ h => by cases h
  | approved c registry draw turn hunused hturn =>
    cases approveRun_cases hsound.pinned hturn with
    | approved consumed row hstate happroves hrow =>
      -- nothing is on record of a run that awaits approval, or else it was paid for
      have hrun : RunRecord.Accounted { sys.run.appendRows [row] with
          approval := some consumed
          state := .authorized
          lastActionAt := Host.toISOString draw.lastActionAt } :=
        ⟨h.run.recorded, False.elim, fun h => (by cases h), fun h => (by cases h), h.run.versions⟩
      exact h.enter c hrun (authorizeAndExecute_facts _ _ _ _) rfl rfl
        (authorizeAndExecute_accounted _ _ _ hrun)
  | replayed c registry reads turn hunused hturn =>
    obtain ⟨-, capability, -, rfl⟩ := replayRun_eq_ok hturn
    exact hagain c registry capability reads
  | reconciled c registry reads turn hunused hreads hturn =>
    obtain ⟨-, capability, -, rfl⟩ := reconcileRun_eq_ok hturn
    exact hagain c registry capability reads
  | drifted c now run hunused hdrift =>
    obtain ⟨hstate, rfl⟩ := simulateDrift_eq_ok hdrift
    have hversions := hsound.versions
    refine h.change ⟨h.run.recorded, h.run.concluded, fun _ => rfl, fun hdenied => ?_, ?_⟩ le_rfl
      (fun _ => rfl) fun _ h => by cases h
    · cases hstate.symm.trans hdenied
    · simp only [true_iff]
      omega
  | checked c stamp run result hunused hverify =>
    obtain ⟨row, -, rfl⟩ := verifyRunLedger_eq_ok hverify
    exact h.change (h.run.same ⟨rfl, rfl, rfl, rfl, rfl, rfl⟩ rfl le_rfl) le_rfl id
      fun _ h => by cases h
  | executed c operation capability params draw adapter outcome hpromise hexecute =>
    have hcount : sys.run.adapter.callCount ≤ adapter.callCount :=
      (CountingAdapter.execute_callCount hexecute).ge
    refine h.change (h.run.same ⟨rfl, rfl, rfl, rfl, rfl, rfl⟩ rfl hcount) hcount id
      fun stage hstage => ?_
    exact (h.requests c stage hstage).mono hcount id
  | woke c waiting wakeup registry stamp shared settled hrequest hwakes hresume =>
    exact h.wake hrequest hresume
  | resumed c settled now run outcome hrequest hfinish => exact h.finish hrequest hfinish

/-! ## What a view tells -/

/-- A run that is kept well and accounted for tells its calls. -/
theorem RunSystem.Accounted.tellsCalls {sys : RunSystem} (h : sys.Accounted) (hsound : sys.Sound)
    (hvisible : sys.run.state.Visible) : sys.run.TellsCalls := by
  have honce : sys.run.adapter.callCount ≤ 1 := hsound.counted.trans_le hsound.executed_once
  have hparked : sys.run.state.Parked → sys.run.adapter.callCount = 0 := by
    intro hparked
    rw [hsound.counted, (hsound.parked hparked).executed]
    rfl
  -- whatever was executed was executed at the version of the proposal
  have hdrifted : sys.run.drifted = true → sys.run.adapter.callCount = 0 := by
    intro hdrifted
    rw [hsound.counted, List.length_eq_zero_iff, List.eq_nil_iff_forall_not_mem]
    rintro ⟨operation, capability, params⟩ hmem
    exact h.run.versions.mp hdrifted (hsound.executed operation capability params hmem).2.2
  refine ⟨?_, h.run.stale, fun hdrift => ⟨hdrifted hdrift, ?_⟩⟩
  · show sys.run.adapter.callCount ∈ sys.run.state.adapterCalls
    cases hstate : sys.run.state with
    | denied => simp [RunState.adapterCalls, hparked (.inl hstate)]
    | approvalRequired => simp [RunState.adapterCalls, hparked (.inr hstate)]
    | stale => simp [RunState.adapterCalls, hdrifted (h.run.stale hstate)]
    | authorized =>
      simp only [RunState.adapterCalls, List.mem_cons, List.not_mem_nil, or_false]
      omega
    | verified | unknownOutcome | reconciliationRequired =>
      have hcalled := h.run.concluded (by rw [hstate]; trivial)
      simp only [RunState.adapterCalls, List.mem_cons, List.not_mem_nil, or_false]
      omega
    | _ =>
      rw [hstate] at hvisible
      exact hvisible.elim
  · have huncalled := hdrifted hdrift
    cases hstate : sys.run.state with
    | approvalRequired => exact .inl rfl
    | authorized => exact .inr (.inl rfl)
    | stale => exact .inr (.inr rfl)
    | denied => cases hdrift.symm.trans (h.run.denied hstate)
    | verified | unknownOutcome | reconciliationRequired =>
      have hcalled := h.run.concluded (by rw [hstate]; trivial)
      omega
    | _ =>
      rw [hstate] at hvisible
      exact hvisible.elim

namespace Server

/-- Every run of a reachable state is accounted for. -/
theorem run_accounted {model : ModelAdapter} {events : List ServerEvent} {s : Server}
    (hrun : Transition.run (step model) {} events = some s) {ref : RunRef} {sys : RunSystem}
    (hsystem : s.system ref = some sys) : sys.Accounted := by
  refine (run_system_invariant (P := fun sys => sys.Sound ∧ sys.Accounted)
    (fun _ hborn => ⟨.born hborn, .born hborn⟩) ?_ (meets_true {} events) hrun hsystem).2
  rintro sys sys' ⟨hsound, haccounted⟩ hstep
  exact ⟨hsound.step hstep, haccounted.step hsound hstep⟩

/-- In every reachable state a view tells how often the adapter of its run was called. -/
theorem calls_told {model : ModelAdapter} {events : List ServerEvent} {s : Server}
    (hrun : Transition.run (step model) {} events = some s) {ref : RunRef} {run : RunRecord}
    (hrecord : s.state.records ref = some run) : run.TellsCalls := by
  have hsystem : s.system ref = some (s.view ref run) := by rw [system, hrecord]; rfl
  exact (run_accounted hrun hsystem).tellsCalls (run_wellkept hrun hsystem).sound
    (run_unfailing hrun hsystem).visible

end Server

end

namespace Sample

section
attribute [local instance] node

theorem approvedMessage_tellsCalls :
    ∃ s run, Transition.run (Server.step FakeModelAdapter.propose) {} approvedMessage = some s ∧
      s.state.records 0 = some run ∧ run.TellsCalls := by
  obtain ⟨s, run, hs, hrecord, -⟩ := approvedMessage_run
  exact ⟨s, run, hs, hrecord, Server.calls_told hs hrecord⟩

end

end Sample

end ActionHarbor
