import ActionHarbor.Model.Views
import ActionHarbor.Spec.Postconditions
import ActionHarbor.Spec.VerifiedReplays

/-!
# What is shown as a success

A client learns of a success from the state of a run, from its execution summary and
from the checks the page reads off the summary. Behind each of them stands a receipt
that passed the postcondition check of the run's own plan, and so confirms what the
plan has requested.

## Key results

- `RunSystem.Proven.step`: what is on record, on its way and shown has been checked
- `Server.shown_success_verified`: so is whatever a client is shown
-/

namespace ActionHarbor

section
variable [Host]

/-- The receipt passed the check of the plan. -/
def RunPlan.Proves (plan : RunPlan) (receipt : JsValue) : Prop :=
  ∃ postcondition, plan.postcondition = some postcondition ∧
    verifyPostcondition plan.actionType receipt postcondition = true

/-- It confirms the parameters of the plan then. -/
theorem RunPlan.Proves.confirmed {plan : RunPlan} {receipt : JsValue} (h : plan.Proves receipt) :
    plan.parameters.ConfirmedBy receipt plan.idempotencyKey := by
  obtain ⟨postcondition, hpostcondition, hverified⟩ := h
  obtain rfl := RunPlan.postcondition_eq hpostcondition
  exact RawActionParameters.fulfils_expectation_iff.mp (verifyPostcondition_iff.mp hverified)

/-- A receipt on record has been checked. -/
def RunRecord.Kept (run : RunRecord) : Prop :=
  ∀ operation, run.Recorded operation → operation.state = .succeeded →
    run.toRunPlan.Proves operation.receipt

/-- So has the receipt that is shown. -/
def RunPlan.Shows (plan : RunPlan) (execution : Option RunExecutionSummary) : Prop :=
  ∀ summary, execution = some summary → summary.ok = true →
    ∃ receipt, summary.receipt = some receipt ∧ plan.Proves receipt

/-- So has the receipt a call has settled with. -/
def RequestStage.Brings (plan : RunPlan) (stage : RequestStage) : Prop :=
  ∀ receipt replay operationId reasonCode auditEvents,
    stage = .settled (.returned (.ok receipt replay operationId reasonCode auditEvents)) →
      plan.Proves receipt

/-- Every receipt of a run has been checked. -/
structure RunSystem.Proven (sys : RunSystem) : Prop where
  kept : sys.run.Kept
  shows : sys.run.toRunPlan.Shows sys.run.execution
  brings : ∀ c stage, sys.requests c = some stage → stage.Brings sys.run.toRunPlan

/-- Write one request back on a run that keeps its plan. -/
theorem RunSystem.Proven.change {sys : RunSystem} (h : sys.Proven) {run : RunRecord}
    {c : RequestId} {stage : Option RequestStage} {promise : Option AdapterPromise}
    {observations : List RunObservation} (hplan : run.toRunPlan = sys.run.toRunPlan)
    (hkept : run.Kept) (hshows : run.toRunPlan.Shows run.execution)
    (hstage : ∀ stage', stage = some stage' → stage'.Brings run.toRunPlan) :
    (sys.change run c stage promise observations).Proven where
  kept := hkept
  shows := hshows
  brings c' stage' hrequest := by
    by_cases hc : c' = c
    · subst hc
      exact hstage stage' (by simpa using hrequest)
    · show stage'.Brings run.toRunPlan
      rw [hplan]
      exact h.brings c' stage' (by simpa [hc] using hrequest)

/-- The run keeps its plan and what is on record under its key. -/
theorem RunRecord.Kept.mono {run run' : RunRecord} (h : run.Kept)
    (hplan : run'.toRunPlan = run.toRunPlan) (hstore : run'.operationStore = run.operationStore) :
    run'.Kept := by
  intro operation hrecorded hstate
  rw [hplan]
  refine h operation ?_ hstate
  rw [RunRecord.Recorded] at hrecorded ⊢
  rwa [hstore, hplan] at hrecorded

/-! ## Turns -/

/-- What a turn leaves has been checked. -/
structure Turn.Proven (turn : Turn) : Prop where
  kept : turn.run.Kept
  shows : turn.run.toRunPlan.Shows turn.run.execution
  brings : ∀ stage, turn.stage = some stage → stage.Brings turn.run.toRunPlan

/-- A turn that answers its request at once. -/
private theorem Turn.Proven.answered {turn : Turn} (hkept : turn.run.Kept)
    (hshows : turn.run.toRunPlan.Shows turn.run.execution) (hstage : turn.stage = none) :
    turn.Proven where
  kept := hkept
  shows := hshows
  brings stage h := by cases hstage.symm.trans h

/-- Starting the call changes nothing that is shown. -/
theorem executeForRun_execution (registry : CapabilityRegistry) (run : RunRecord)
    (capability : Capability) (reads : CallReads) :
    (executeForRun registry run capability reads).run.execution = run.execution := by
  rw [executeForRun]
  split
  · rfl
  · dsimp only
    unfold RunRecord.invokeAdapter
    split <;> rfl

/-- A call that settles at once with a receipt found it on record. -/
theorem executeForRun_proven (registry : CapabilityRegistry) (run : RunRecord)
    (capability : Capability) (reads : CallReads) (hkept : run.Kept)
    (hshows : run.toRunPlan.Shows run.execution) :
    (executeForRun registry run capability reads).Proven := by
  have hfacts := executeForRun_facts registry run capability reads
  have hexecution := executeForRun_execution registry run capability reads
  have hcase := executeForRun_cases registry run capability reads
  generalize executeForRun registry run capability reads = turn at hfacts hexecution hcase
  refine ⟨hkept.mono hfacts.same.plan hfacts.store, ?_, ?_⟩
  · rw [hfacts.same.plan, hexecution]
    exact hshows
  · rw [hfacts.same.plan]
    rintro stage hstage receipt replay operationId reasonCode auditEvents rfl
    cases hcase with
    | unwired => cases hstage
    | called postcondition shared progress hpost houtcome =>
      cases houtcome with
      | replayed parsed prior entry hguards hhash hrecord hstate =>
        cases hstage
        exact hkept prior hrecord hstate
      | entered parsed payloadHash registry' entry =>
        rw [invokeAdapter] at hstage
        split at hstage <;> cases hstage
      | _ => cases hstage

/-- Minting first changes nothing of this; a mint that is refused shows no success. -/
theorem authorizeAndExecute_proven (registry : CapabilityRegistry) {run : RunRecord}
    (evidence : AuthorizationEvidence) (draw : AuthorizeDraw) (hkept : run.Kept)
    (hshows : run.toRunPlan.Shows run.execution) :
    (authorizeAndExecute registry run evidence draw).Proven := by
  rw [authorizeAndExecute]
  cases mintCapability evidence run.request draw.mint 60000 with
  | error reasonCode =>
    refine .answered hkept (fun summary hsummary hok => ?_) rfl
    obtain rfl := Option.some.inj hsummary
    cases hok
  | ok capability =>
    dsimp only
    rw [withEvent]
    split
    · exact .answered hkept hshows rfl
    · rename_i ledger entry happend
      have hcall := executeForRun_proven (registry.record capability)
        { run with ledger := ledger, capability := some capability } capability draw.reads
        hkept hshows
      exact ⟨hcall.kept, hcall.shows, hcall.brings⟩

/-- A transition before the turn changes nothing of this. -/
private theorem withTransition_proven (registry : CapabilityRegistry) {run : RunRecord}
    (trigger : RunStateTrigger) {next : RunRecord → Turn} (hkept : run.Kept)
    (hshows : run.toRunPlan.Shows run.execution)
    (hnext : ∀ state, (next { run with state := state }).Proven) :
    (withTransition registry run trigger next).Proven := by
  rw [withTransition]
  split
  · exact .answered hkept hshows rfl
  · exact hnext _

/-- A new run has nothing on record and shows nothing. -/
theorem followVerdict_proven (registry : CapabilityRegistry) {run : RunRecord}
    (draw : AuthorizeDraw) (hkept : run.Kept) (hshows : run.toRunPlan.Shows run.execution) :
    (followVerdict registry run draw).Proven := by
  rw [followVerdict]
  cases run.policyVerdict.outcome with
  | deny | requireApproval =>
    exact withTransition_proven registry _ hkept hshows fun _ => .answered hkept hshows rfl
  | allow =>
    exact withTransition_proven registry _ hkept hshows fun _ =>
      authorizeAndExecute_proven registry _ draw hkept hshows

theorem approveRun_proven {registry : CapabilityRegistry} {run : RunRecord} {draw : ApproveDraw}
    {turn : Turn} (h : approveRun registry run draw = .ok turn) (hkept : run.Kept)
    (hshows : run.toRunPlan.Shows run.execution) : turn.Proven := by
  rw [approveRun] at h
  split at h
  · cases h
  dsimp only at h
  split at h
  · cases h
  obtain rfl := Except.ok.inj h
  rw [withEvent]
  split
  · exact .answered hkept hshows rfl
  · exact withTransition_proven registry _ hkept hshows fun _ =>
      authorizeAndExecute_proven registry _ draw.authorize hkept hshows

/-! ## Steps -/

/-- The receipt passes the check of the call that waits. -/
def Waiting.Passes (waiting : Waiting) (receipt : JsValue) : Prop :=
  verifyPostcondition waiting.input.request.actionType receipt waiting.input.postcondition = true

/-- A call writes one record at most, and a success only behind its check. -/
theorem Settlement.written {shared shared' : Shared} {waiting : Waiting} {wakeup : Wakeup}
    {settled : Settled} (h : Settlement shared waiting wakeup shared' settled) :
    shared'.operationStore = shared.operationStore ∨
      ∃ record, shared'.operationStore = shared.operationStore.record record ∧
        (record.state = .succeeded → waiting.Passes record.receipt) := by
  cases h with
  | verified _ _ receipt entry _ hverified => exact .inr ⟨_, rfl, fun _ => hverified⟩
  | unverified | timedOut | rejected | refusal => exact .inr ⟨_, rfl, fun h => by cases h⟩
  | crashed | inconclusive | lookupMalformed | lookupRejected => exact .inl rfl

/-- It settles with a receipt only behind its check. -/
theorem Settlement.passes {shared shared' : Shared} {waiting : Waiting} {wakeup : Wakeup}
    {receipt : JsValue} {replay : Bool} {operationId : JsString}
    {reasonCode : Option VerificationReasonCode} {auditEvents : List AuditLedgerEntry}
    (h : Settlement shared waiting wakeup shared'
      (.returned (.ok receipt replay operationId reasonCode auditEvents))) :
    waiting.Passes receipt := by
  cases h with
  | verified _ _ _ _ _ hverified => exact hverified

/-- The end of a wait. -/
private theorem RunSystem.Proven.wake {sys : RunSystem} (h : sys.Proven) {c : RequestId}
    {waiting : Waiting} {wakeup : Wakeup} {registry : CapabilityRegistry} {stamp : Stamp}
    {shared : Shared} {settled : Settled} (hfits : waiting.Fits sys.run)
    (hresume : waiting.resume wakeup ⟨registry, sys.run.operationStore, sys.run.ledger⟩ stamp =
      some (shared, settled)) :
    (sys.change { sys.run with operationStore := shared.operationStore, ledger := shared.ledger } c
      (some (.settled settled)) (sys.promises c) []).Proven := by
  have hcase := resume_cases hresume
  have hproves : ∀ receipt, waiting.Passes receipt → sys.run.toRunPlan.Proves receipt := by
    intro receipt hpasses
    rw [Waiting.Passes, hfits.request] at hpasses
    exact ⟨_, hfits.postcondition, hpasses⟩
  refine h.change rfl (fun operation hrecorded hstate => ?_) h.shows fun stage hstage => ?_
  · -- what is found under the key is the record just written or the one before
    rcases hcase.written with hstore | ⟨record, hstore, hpasses⟩
    · have hkept : RunRecord.Kept { sys.run with
          operationStore := shared.operationStore, ledger := shared.ledger } :=
        h.kept.mono rfl hstore
      exact hkept operation hrecorded hstate
    · have hfound : shared.operationStore.byIdempotencyKey sys.run.idempotencyKey =
        some operation := hrecorded
      rw [hstore, OperationStore.record] at hfound
      dsimp only at hfound
      by_cases hkey : sys.run.idempotencyKey = record.idempotencyKey
      · rw [hkey, Function.update_self] at hfound
        obtain rfl := Option.some.inj hfound
        exact hproves _ (hpasses hstate)
      · rw [Function.update_of_ne hkey] at hfound
        exact h.kept operation hfound hstate
  · obtain rfl := Option.some.inj hstage
    rintro receipt replay operationId reasonCode auditEvents heq
    cases heq
    exact hproves receipt hcase.passes

/-- The end of a request: a success that is shown is the one the call settled with. -/
private theorem RunSystem.Proven.finish {sys : RunSystem} (h : sys.Proven) {c : RequestId}
    {settled : Settled} {now : Instant} {run : RunRecord} {outcome : Except RequestError Unit}
    (hrequest : sys.requests c = some (.settled settled))
    (hfinish : finishExecution sys.run settled now = (run, outcome)) :
    (sys.change run c none (sys.promises c) [.responded outcome]).Proven := by
  have hnone : ∀ plan : RunPlan, ∀ stage', (none : Option RequestStage) = some stage' →
      stage'.Brings plan := fun _ _ h => by cases h
  cases settled with
  | threw error =>
    cases hfinish
    exact h.change rfl h.kept h.shows (hnone _)
  | returned result =>
    simp only [finishExecution] at hfinish
    cases hresult : applyExecutionResult sys.run.state result with
    | error error =>
      rw [hresult] at hfinish
      cases hfinish
      exact h.change rfl h.kept h.shows (hnone _)
    | ok state =>
      rw [hresult] at hfinish
      cases hfinish
      refine h.change rfl h.kept (fun summary hsummary hok => ?_) (hnone _)
      obtain rfl := Option.some.inj hsummary
      cases result with
      | ok receipt replay operationId reasonCode auditEvents =>
        exact ⟨receipt, rfl, h.brings c _ hrequest _ _ _ _ _ rfl⟩
      | _ => cases hok

/-- Write a turn back. -/
private theorem RunSystem.Proven.enter {sys : RunSystem} (h : sys.Proven) (c : RequestId)
    {turn : Turn} (hplan : turn.run.toRunPlan = sys.run.toRunPlan) (hturn : turn.Proven) :
    (sys.enter c turn).Proven :=
  h.change hplan hturn.kept hturn.shows hturn.brings

/-- The verdict on a new run leaves its plan alone. -/
theorem followVerdict_plan (registry : CapabilityRegistry) {run : RunRecord}
    (draw : AuthorizeDraw) (hstate : run.state = .validated) :
    (followVerdict registry run draw).run.toRunPlan = run.toRunPlan := by
  have hcase := followVerdict_cases registry draw hstate
  generalize followVerdict registry run draw = turn at hcase
  cases hcase with
  | denied | parked => rfl
  | allowed => exact (authorizeAndExecute_facts _ _ _ _).same.plan

/-- A new run has shown and recorded nothing. -/
theorem RunSystem.Proven.born {model : ModelAdapter} {sys : RunSystem} (h : Born model sys) :
    sys.Proven := by
  obtain ⟨scenarioId, draw, registry, run, c, hnew⟩ := h
  have hrun := proposeRun_eq_ok hnew
  have hkept : run.Kept := fun operation hrecorded => absurd hrecorded (hrun.unrecorded operation)
  have hshows : run.toRunPlan.Shows run.execution := by
    obtain ⟨flow, action, more, -, -, hproposed⟩ := proposeRun_record hnew
    rw [hproposed.execution]
    exact fun summary h => by cases h
  have hbase : RunSystem.Proven { run := run } := ⟨hkept, hshows, fun _ _ h => by cases h⟩
  exact hbase.enter c (followVerdict_plan registry draw.authorize hrun.state)
    (followVerdict_proven registry draw.authorize hkept hshows)

/-- Every step of a run keeps its receipts checked. -/
theorem RunSystem.Proven.step {C : RunSystem → CallReads → Prop} {sys sys' : RunSystem}
    (h : sys.Proven) (hwellkept : sys.Wellkept) (hstep : RunStep C sys sys') : sys'.Proven := by
  cases hstep with
  | refused => exact h.change rfl h.kept h.shows fun _ h => by cases h
  | approved c registry draw turn hunused hturn =>
    refine h.enter c ?_ (approveRun_proven hturn h.kept h.shows)
    cases approveRun_cases hwellkept.sound.pinned hturn with
    | approved => exact (authorizeAndExecute_facts _ _ _ _).same.plan
  | replayed c registry reads turn hunused hturn =>
    obtain ⟨-, capability, -, rfl⟩ := replayRun_eq_ok hturn
    exact h.enter c (executeForRun_facts _ _ _ _).same.plan
      (executeForRun_proven registry _ capability reads h.kept h.shows)
  | reconciled c registry reads turn hunused hreads hturn =>
    obtain ⟨-, capability, -, rfl⟩ := reconcileRun_eq_ok hturn
    exact h.enter c (executeForRun_facts _ _ _ _).same.plan
      (executeForRun_proven registry _ capability reads h.kept h.shows)
  | drifted c now run hunused hdrift =>
    obtain ⟨-, rfl⟩ := simulateDrift_eq_ok hdrift
    exact h.change rfl h.kept h.shows fun _ h => by cases h
  | checked c stamp run result hunused hverify =>
    obtain ⟨row, -, rfl⟩ := verifyRunLedger_eq_ok hverify
    exact h.change rfl h.kept h.shows fun _ h => by cases h
  | executed c operation capability params draw adapter outcome =>
    exact h.change rfl h.kept h.shows (h.brings c)
  | woke c waiting wakeup registry stamp shared settled hrequest hwakes hresume =>
    exact h.wake (hwellkept.resumable.requests c _ hrequest) hresume
  | resumed c settled now run outcome hrequest hfinish => exact h.finish hrequest hfinish

/-! ## What a client sees -/

omit [Host] in
/-- The page shows a passed postcondition exactly where the summary says so. -/
theorem VerificationPanel.postcondition_eq_passed (run : RunRecord) :
    VerificationPanel.postcondition (toRunView run) = .passed ↔
      ∃ summary, run.execution = some summary ∧ summary.ok = true := by
  have hview : (toRunView run).execution = run.execution := rfl
  rw [postcondition, hview]
  cases run.execution with
  | none => simp
  | some summary =>
    cases hok : summary.ok
    · simp only [Bool.not_false, true_and, Bool.false_eq_true, if_false, Option.some.injEq,
        exists_eq_left', hok, iff_false]
      split_ifs <;> simp
    · simp [hok]

/-- In every reachable state a verified run, and a postcondition the page shows as passed,
    have a receipt that passed the postcondition check of the run's own plan and confirms the
    parameters of that plan. -/
theorem Server.shown_success_verified {model : ModelAdapter} {events : List ServerEvent}
    {s : Server} (hrun : Transition.run (Server.step model) {} events = some s) {ref : RunRef}
    {run : RunRecord} (hrecord : s.state.records ref = some run) :
    (run.state = .verified → ∃ operation, run.Recorded operation ∧
        operation.state = .succeeded ∧ run.toRunPlan.Proves operation.receipt ∧
        run.parameters.ConfirmedBy operation.receipt run.idempotencyKey) ∧
      (VerificationPanel.postcondition (toRunView run) = .passed → ∃ summary receipt,
        run.execution = some summary ∧ summary.receipt = some receipt ∧
          run.toRunPlan.Proves receipt ∧
          run.parameters.ConfirmedBy receipt run.idempotencyKey) := by
  have hsystem : s.system ref = some (s.view ref run) := by rw [system, hrecord]; rfl
  have hkept : (s.view ref run).Wellkept ∧ (s.view ref run).Proven := by
    refine run_system_invariant (P := fun sys => sys.Wellkept ∧ sys.Proven)
      (fun _ hborn => ⟨⟨.born hborn, .born hborn, .born hborn⟩, .born hborn⟩) ?_
      (meets_true {} events) hrun hsystem
    rintro sys sys' ⟨hwellkept, hproven⟩ hstep
    exact ⟨hwellkept.step hstep, hproven.step hwellkept hstep⟩
  obtain ⟨hwellkept, hproven⟩ := hkept
  refine ⟨fun hverified => ?_, fun hpassed => ?_⟩
  · obtain ⟨operation, hrecorded, hstate, -⟩ := hwellkept.resumable.verified hverified
    have hproves := hproven.kept operation hrecorded hstate
    exact ⟨operation, hrecorded, hstate, hproves, hproves.confirmed⟩
  · obtain ⟨summary, hsummary, hok⟩ := (VerificationPanel.postcondition_eq_passed run).mp hpassed
    obtain ⟨receipt, hreceipt, hproves⟩ := hproven.shows summary hsummary hok
    exact ⟨summary, receipt, hsummary, hreceipt, hproves, hproves.confirmed⟩

end

namespace Sample

section
attribute [local instance] node

theorem sentMessage_shown :
    ∃ s run, Transition.run (Server.step FakeModelAdapter.propose) {} sentMessage = some s ∧
      s.state.records 0 = some run ∧ ∃ summary receipt, run.execution = some summary ∧
        summary.receipt = some receipt ∧ run.toRunPlan.Proves receipt ∧
        run.parameters.ConfirmedBy receipt run.idempotencyKey := by
  have hpassed : ∃ s ∈ Transition.run (Server.step FakeModelAdapter.propose) {} sentMessage,
      ∃ run ∈ s.state.records 0,
        VerificationPanel.postcondition (toRunView run) = .passed := by
    decide +kernel
  obtain ⟨s, hs, run, hrecord, hpassed⟩ := hpassed
  exact ⟨s, run, hs, hrecord, (Server.shown_success_verified hs hrecord).2 hpassed⟩

end

end Sample

end ActionHarbor
