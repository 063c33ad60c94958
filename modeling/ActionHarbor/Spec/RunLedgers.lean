import ActionHarbor.Spec.AuditRows
import ActionHarbor.Spec.Authority
import ActionHarbor.Spec.LiveLedger
import ActionHarbor.Spec.RunEffects
import ActionHarbor.Spec.SameJson

/-!
# The ledger of a run

Whatever happens on a run, its ledger only grows, and only by `AuditLedger.append`. So
the chain of every run verifies in every reachable state, and a request to check it is
always answered with the number of its rows.

## Key results

- `AuditLedger.Builds`: a ledger grown from another one by appends
- `RunSystem.builds_step`: what a step of a run does to its ledger
- `Server.ledger_verifies`: the ledger of a run verifies in every reachable state
-/

namespace ActionHarbor

section
variable [Host]

/-- A payload that is JSON data. -/
abbrev IsJsonPayload (payload : List (JsString × JsValue)) : Prop :=
  isJsonData (.object payload) = true

omit [Host] in
/-- A list of texts. -/
private theorem isJsonItems_texts {α : Type} (texts : List α) (toJs : α → JsString) :
    isJsonItems (texts.map fun text => .string (toJs text)) = true := by
  induction texts with
  | nil => rfl
  | cons text rest ih => exact isJsonItems_cons.mpr ⟨rfl, ih⟩

omit [Host] in
/-- A payload of one field. -/
private theorem isJsonPayload_singleton {key : JsString} {value : JsValue} (hkey : key ≠ protoKey)
    (hvalue : isJsonData value = true) : IsJsonPayload [(key, value)] := by
  simp [IsJsonPayload, hkey, hvalue, AssocList.keys, isJsonProps]

omit [Host] in
private theorem isJsonPayload_reasonCode (reasonCode : JsString) :
    IsJsonPayload (reasonCodePayload reasonCode) :=
  isJsonPayload_singleton (by decide) rfl

/-- A ledger that was grown from another one by appending events with JSON payloads. -/
inductive AuditLedger.Builds (ledger : AuditLedger) : AuditLedger → Prop
  | refl : Builds ledger ledger
  | append (grown next : AuditLedger) (input : AuditEventInput) (stamp : Stamp)
      (entry : AuditLedgerEntry) (hbuilds : Builds ledger grown)
      (hpayload : IsJsonPayload input.payload)
      (happend : grown.append input stamp = .ok (next, entry)) : Builds ledger next

namespace AuditLedger.Builds
variable {ledger grown next : AuditLedger}

/-- One append. -/
theorem single {input : AuditEventInput} {stamp : Stamp} {entry : AuditLedgerEntry}
    (hpayload : IsJsonPayload input.payload)
    (happend : ledger.append input stamp = .ok (next, entry)) : Builds ledger next :=
  .append ledger next input stamp entry .refl hpayload happend

/-- Appends after appends. -/
theorem trans (h : Builds ledger grown) (h' : Builds grown next) : Builds ledger next := by
  induction h' with
  | refl => exact h
  | append grown next input stamp entry _ hpayload happend ih =>
    exact .append grown next input stamp entry ih hpayload happend

/-- The rows that were there stay in place. -/
theorem isPrefix (h : Builds ledger grown) : ledger.entries <+: grown.entries := by
  induction h with
  | refl => exact List.prefix_refl _
  | append grown next input stamp entry _ _ happend ih =>
    rw [(AuditLedger.append_eq_ok happend).1]
    exact ih.trans (List.prefix_append _ _)

/-- The chain stays intact. -/
theorem intact (h : Builds ledger grown) (hintact : ledger.Intact) : grown.Intact := by
  induction h with
  | refl => exact hintact
  | append grown next input stamp entry _ _ happend ih =>
    obtain ⟨built, hbuilt, happend⟩ := bind_eq_ok happend
    obtain ⟨rfl, rfl⟩ := Prod.mk.inj (Except.ok.inj happend)
    exact ih.append hbuilt

end AuditLedger.Builds

/-! ## The gateway -/

/-- What was done to the ledger of a call. -/
def BuildsOn {α : Type} (shared : Shared) (result : Shared × α) : Prop :=
  shared.ledger.Builds result.1.ledger

/-- The ledger is as it was. -/
private theorem buildsOn_silent {α : Type} (shared : Shared) (progress : α) :
    BuildsOn shared (shared, progress) :=
  .refl

/-- The gateway's rows are appended. -/
private theorem buildsOn_withAudit {before shared : Shared} {operationId : JsString}
    {type : AuditEventType} {payload : List (JsString × JsValue)} {stamp : Stamp}
    {next : Shared → AuditLedgerEntry → Shared × CallProgress}
    (hpayload : IsJsonPayload payload)
    (hnext : ∀ shared entry, (next shared entry).1.ledger = shared.ledger)
    (hbefore : shared.ledger = before.ledger) :
    BuildsOn before (withAudit shared operationId type payload stamp next) := by
  rw [BuildsOn, withAudit_def, ← hbefore]
  cases haudit : audit shared.ledger operationId type payload stamp with
  | error => exact .refl
  | ok result =>
    obtain ⟨ledger, entry⟩ := result
    dsimp only
    rw [hnext]
    exact .single hpayload haudit

/-- The synchronous part of a call. -/
theorem executeAction_builds (shared : Shared) (input : ExecuteActionInput) (reads : CallReads) :
    BuildsOn shared (executeAction shared input reads) := by
  rw [executeAction]
  -- one row at most is appended, by whichever guard ends the call
  cases parseAndValidateCapability input.capabilityRaw input.request reads.now with
  | error reasonCode => exact buildsOn_silent _ _
  | ok capability =>
    dsimp only
    cases checkPreconditions capability input.precondition with
    | error reasonCodes =>
      have hpayload : IsJsonPayload
          [(js "reasonCodes", .array (reasonCodes.map fun code => .string code.toJs))] :=
        isJsonPayload_singleton (by decide) (isJsonItems_texts _ _)
      exact buildsOn_withAudit hpayload (fun _ _ => rfl) rfl
    | ok _ =>
      dsimp only
      cases hashCanonical input.params with
      | error e => exact buildsOn_silent _ _
      | ok payloadHash =>
        dsimp only
        cases shared.operationStore.check input.operation.idempotencyKey payloadHash with
        | conflict => exact buildsOn_withAudit (isJsonPayload_reasonCode _) (fun _ _ => rfl) rfl
        | duplicate prior =>
          dsimp only [reconcileDuplicate]
          split
          · exact buildsOn_withAudit (isJsonPayload_reasonCode _) (fun _ _ => rfl) rfl
          split <;> exact buildsOn_silent _ _
        | new =>
          dsimp only [executeFresh]
          cases shared.registry.consume capability.id capability.nonce with
          | error reasonCode => exact buildsOn_silent _ _
          | ok registry =>
            have hpayload : IsJsonPayload
                [(js "actionType", .string input.request.actionType.toJs)] :=
              isJsonPayload_singleton (by decide) rfl
            exact buildsOn_withAudit hpayload (fun _ _ => rfl) rfl

/-- Recording an outcome. -/
private theorem buildsOn_recordAndAudit (shared : Shared) (record : OperationRecord)
    (operationId : JsString) (type : AuditEventType) {payload : List (JsString × JsValue)}
    (hpayload : IsJsonPayload payload) (stamp : Stamp)
    (result : AuditLedgerEntry → ExecuteActionResult) :
    BuildsOn shared (recordAndAudit shared record operationId type payload stamp result) := by
  rw [BuildsOn, recordAndAudit_def]
  cases haudit : audit shared.ledger operationId type payload stamp with
  | error => exact .refl
  | ok appended => exact .single hpayload haudit

private theorem buildsOn_finalizeFromReceipt (shared : Shared) (input : ExecuteActionInput)
    (receipt : JsValue) (payloadHash capabilityId : JsString) (reconciled : Bool)
    (auditEventsSoFar : List AuditLedgerEntry) (stamp : Stamp) :
    BuildsOn shared (finalizeFromReceipt shared input receipt payloadHash capabilityId
      reconciled auditEventsSoFar stamp) := by
  rw [finalizeFromReceipt]
  split
  · refine buildsOn_recordAndAudit _ _ _ _ ?_ _ _
    rw [verifiedPayload]
    split
    · exact isJsonPayload_reasonCode _
    · exact rfl
  · exact buildsOn_recordAndAudit _ _ _ _ (isJsonPayload_reasonCode _) _ _

/-- The continuation behind an inconclusive or a found lookup. -/
private theorem buildsOn_afterLookup (shared : Shared) (call : LookupCall) (answer : LookupAnswer)
    (stamp : Stamp) : BuildsOn shared (afterLookup shared call answer stamp) := by
  cases answer with
  | rejected => exact buildsOn_silent _ _
  | resolved value =>
    simp only [afterLookup]
    split
    · exact buildsOn_silent _ _
    split
    · cases haudit : audit shared.ledger call.input.operation.operationId .reconciliationRequired
        (reasonCodePayload VerificationReasonCode.unknownOutcome.toJs) stamp with
      | error => exact buildsOn_silent _ _
      | ok appended => exact .single (isJsonPayload_reasonCode _) haudit
    · exact buildsOn_finalizeFromReceipt ..

/-- The continuation of a call. -/
theorem resume_builds {shared : Shared} {waiting : Waiting} {wakeup : Wakeup} {stamp : Stamp}
    {result : Shared × Settled} (h : waiting.resume wakeup shared stamp = some result) :
    BuildsOn shared result := by
  cases waiting with
  | executing call =>
    cases wakeup with
    | executeResolved receipt =>
      obtain rfl := Option.some.inj h
      simp only [afterRace]
      exact buildsOn_finalizeFromReceipt ..
    | executeRejected error =>
      obtain rfl := Option.some.inj h
      rw [afterRace]
      split
      -- a rejection appends no row, recorded or rethrown
      · exact buildsOn_silent _ _
      · exact .refl
    | timerFired =>
      obtain rfl := Option.some.inj h
      simp only [afterRace]
      exact buildsOn_recordAndAudit _ _ _ _ (isJsonPayload_reasonCode _) _ _
    | refusalDelivered | lookupSettled => cases h
  | refused call reasonCode =>
    cases wakeup with
    | refusalDelivered =>
      obtain rfl := Option.some.inj h
      simp only [afterRace]
      exact .refl
    | executeResolved | executeRejected | timerFired | lookupSettled => cases h
  | lookingUp call =>
    cases wakeup with
    | lookupSettled answer =>
      obtain rfl := Option.some.inj h
      exact buildsOn_afterLookup ..
    | executeResolved | executeRejected | timerFired | refusalDelivered => cases h

/-! ## Turns -/

/-- What a turn did to the ledger of its run. -/
def RunRecord.BuildsTo (run : RunRecord) (turn : Turn) : Prop :=
  run.ledger.Builds turn.run.ledger

private theorem buildsTo_throw (registry : CapabilityRegistry) (run : RunRecord)
    (error : RequestError) : run.BuildsTo (.throw registry run error) :=
  .refl

private theorem buildsTo_finish (registry : CapabilityRegistry) {run run' : RunRecord}
    (hledger : run'.ledger = run.ledger) : run.BuildsTo (.finish registry run') := by
  rw [RunRecord.BuildsTo, Turn.finish, hledger]
  exact .refl

/-- That a capability was minted is no matter of the ledger. -/
private theorem buildsTo_minted {run : RunRecord} {turn : Turn} (h : run.BuildsTo turn)
    (minted : Option Capability) : run.BuildsTo { turn with minted := minted } :=
  h

/-- One of the orchestrator's own events, and what follows it. -/
private theorem buildsTo_withEvent {registry : CapabilityRegistry} {run : RunRecord}
    {input : AuditEventInput} {stamp : Stamp} {next : RunRecord → Turn}
    (hpayload : IsJsonPayload input.payload) (hnext : ∀ run : RunRecord, run.BuildsTo (next run)) :
    run.BuildsTo (withEvent registry run input stamp next) := by
  rw [withEvent]
  cases happend : run.ledger.append input stamp with
  | error => exact buildsTo_throw _ _ _
  | ok result =>
    obtain ⟨ledger, entry⟩ := result
    exact (AuditLedger.Builds.single hpayload happend).trans (hnext { run with ledger := ledger })

/-- A transition, and what follows it. -/
private theorem buildsTo_withTransition {registry : CapabilityRegistry} {run : RunRecord}
    {trigger : RunStateTrigger} {next : RunRecord → Turn}
    (hnext : ∀ run : RunRecord, run.BuildsTo (next run)) :
    run.BuildsTo (withTransition registry run trigger next) := by
  rw [withTransition]
  cases mustTransition run.state trigger with
  | error => exact buildsTo_throw _ _ _
  | ok state => exact hnext { run with state := state }

omit [Host] in
/-- Counting the call leaves the ledger alone. -/
private theorem RunRecord.invokeAdapter_ledger (run : RunRecord) (progress : CallProgress) :
    (run.invokeAdapter progress).ledger = run.ledger := by
  unfold invokeAdapter
  split <;> rfl

private theorem executeForRun_builds (registry : CapabilityRegistry) (run : RunRecord)
    (capability : Capability) (reads : CallReads) :
    run.BuildsTo (executeForRun registry run capability reads) := by
  rw [executeForRun]
  split
  · exact buildsTo_throw _ _ _
  · dsimp only
    rw [RunRecord.BuildsTo, RunRecord.invokeAdapter_ledger]
    exact executeAction_builds ⟨registry, run.operationStore, run.ledger⟩ _ reads

private theorem authorizeAndExecute_builds (registry : CapabilityRegistry) (run : RunRecord)
    (evidence : AuthorizationEvidence) (draw : AuthorizeDraw) :
    run.BuildsTo (authorizeAndExecute registry run evidence draw) := by
  rw [authorizeAndExecute]
  cases mintCapability evidence run.request draw.mint 60000 with
  | error => exact buildsTo_finish _ rfl
  | ok capability =>
    have hcall : ∀ run : RunRecord, run.BuildsTo (executeForRun (registry.record capability)
        { run with capability := some capability } capability draw.reads) :=
      fun run => executeForRun_builds _ { run with capability := some capability } capability _
    refine buildsTo_minted ?_ _
    refine buildsTo_withEvent ?_ hcall
    simp [IsJsonPayload, isJsonData, isJsonProps, AssocList.keys, protoKey]

/-- The first turn of a run. -/
theorem followVerdict_builds (registry : CapabilityRegistry) (run : RunRecord)
    (draw : AuthorizeDraw) : run.BuildsTo (followVerdict registry run draw) := by
  rw [followVerdict]
  cases run.policyVerdict.outcome with
  | deny | requireApproval => exact buildsTo_withTransition fun _ => buildsTo_finish _ rfl
  | allow => exact buildsTo_withTransition fun _ => authorizeAndExecute_builds _ _ _ _

private theorem approveRun_builds {registry : CapabilityRegistry} {run : RunRecord}
    {draw : ApproveDraw} {turn : Turn} (h : approveRun registry run draw = .ok turn) :
    run.BuildsTo turn := by
  rw [approveRun] at h
  split at h
  · cases h
  dsimp only at h
  split at h
  · cases h
  rename_i consumed _
  obtain rfl := Except.ok.inj h
  refine buildsTo_withEvent ?_ fun run => ?_
  · simp [Approval.consumedEvent, IsJsonPayload, isJsonData, isJsonProps, AssocList.keys, protoKey]
  have happroved : RunRecord.BuildsTo { run with approval := some consumed }
      (withTransition registry { run with approval := some consumed } .matchingApproval fun run =>
        authorizeAndExecute registry
          { run with lastActionAt := Host.toISOString draw.lastActionAt } (.approved consumed)
          draw.authorize) :=
    buildsTo_withTransition fun run => authorizeAndExecute_builds registry
      { run with lastActionAt := Host.toISOString draw.lastActionAt } _ _
  exact happroved

/-- The two rows of a new run. -/
private theorem proposeRun_builds {model : ModelAdapter} {scenarioId : JsString} {draw : CreateDraw}
    {run : RunRecord} (h : proposeRun model scenarioId draw = .ok run) :
    AuditLedger.Builds {} run.ledger := by
  have hsingle : ∀ {ledger ledger' : AuditLedger} {input : AuditEventInput} {stamp : Stamp},
      IsJsonPayload input.payload → appendNew ledger input stamp = .ok ledger' →
        ledger.Builds ledger' := by
    intro ledger ledger' input stamp hpayload happend
    rw [appendNew] at happend
    split at happend
    · cases happend
    · rename_i grown entry hgrown
      obtain rfl := Except.ok.inj happend
      exact .single hpayload hgrown
  rw [proposeRun] at h
  split at h
  · cases h
  obtain ⟨ledger, hproposed, h⟩ := bind_eq_ok h
  split at h
  · cases h
  · cases h
  split at h
  · cases h
  obtain ⟨ledger', hdecided, h⟩ := bind_eq_ok h
  obtain ⟨state, -, h⟩ := bind_eq_ok h
  obtain rfl := Except.ok.inj h
  refine (hsingle ?_ hproposed).trans (hsingle ?_ hdecided)
  · simp [IsJsonPayload, isJsonData, isJsonProps, AssocList.keys, protoKey]
  · simp [IsJsonPayload, isJsonData, isJsonProps, isJsonItems_texts, AssocList.keys, protoKey]

/-! ## Runs -/

omit [Host] in
/-- The payload of a check. -/
private theorem LedgerIntegrityResult.isJsonPayload_toPayload (result : LedgerIntegrityResult) :
    IsJsonPayload result.toPayload := by
  cases result <;>
    simp [toPayload, IsJsonPayload, isJsonData, isJsonProps, AssocList.keys, protoKey,
      JsNumber.ofNat, JsNumber.isFinite]

/-- The ledger of a new run was grown from nothing. -/
theorem RunSystem.builds_born {model : ModelAdapter} {sys : RunSystem} (h : Born model sys) :
    AuditLedger.Builds {} sys.run.ledger := by
  obtain ⟨scenarioId, draw, registry, run, c, hnew⟩ := h
  have hverdict : run.BuildsTo (followVerdict registry run draw.authorize) :=
    followVerdict_builds registry run draw.authorize
  exact (proposeRun_builds hnew).trans hverdict

/-- A step of a run grows its ledger or leaves it. -/
theorem RunSystem.builds_step {C : RunSystem → CallReads → Prop} {sys sys' : RunSystem}
    (h : RunStep C sys sys') : sys.run.ledger.Builds sys'.run.ledger := by
  cases h with
  | refused | executed => exact .refl
  | approved c registry draw turn hunused hturn => exact approveRun_builds hturn
  | replayed c registry reads turn hunused hturn =>
    obtain ⟨-, capability, -, rfl⟩ := replayRun_eq_ok hturn
    exact executeForRun_builds ..
  | reconciled c registry reads turn hunused hreads hturn =>
    obtain ⟨-, capability, -, rfl⟩ := reconcileRun_eq_ok hturn
    exact executeForRun_builds ..
  | drifted c now run hunused hdrift =>
    obtain ⟨-, rfl⟩ := simulateDrift_eq_ok hdrift
    exact .refl
  | checked c stamp run result hunused hverify =>
    rw [verifyRunLedger] at hverify
    split at hverify
    · cases hverify
    split at hverify
    · cases hverify
    rename_i ledger entry happend
    obtain ⟨rfl, -⟩ := Prod.mk.inj (Except.ok.inj hverify)
    exact .single (LedgerIntegrityResult.isJsonPayload_toPayload _) happend
  | woke c waiting wakeup registry stamp shared settled hrequest hwakes hresume =>
    exact resume_builds hresume
  | resumed c settled now run outcome hrequest hfinish =>
    -- the result of a call is not a row
    cases finishExecution_cases hfinish <;> exact .refl

/-- A check of an intact ledger is answered with the number of its rows. -/
theorem verifyRunLedger_intact {run : RunRecord} (hintact : run.ledger.Intact) (stamp : Stamp) :
    ∃ entry, entry.type = .auditIntegrityChecked ∧
      verifyRunLedger run stamp =
        .ok (run.appendRows [entry], .ok run.ledger.entries.length) := by
  obtain ⟨entry, hentry, htype, -⟩ := run.ledger.append_hashable
    { type := .auditIntegrityChecked
      actor := ⟨.server, js "audit-verifier-v1"⟩
      subject := ⟨.operation, run.operationId⟩
      payload := (LedgerIntegrityResult.ok run.ledger.entries.length).toPayload
      operationId := some run.operationId } stamp (by simp [LedgerIntegrityResult.toPayload])
  refine ⟨entry, htype, ?_⟩
  simp only [verifyRunLedger, hintact.verify.1, hentry]
  rfl

namespace Server

/-- The ledger of a run in a reachable state was grown from nothing. -/
theorem builds_record {model : ModelAdapter} {events : List ServerEvent} {s : Server}
    (hrun : Transition.run (step model) {} events = some s) {ref : RunRef} {run : RunRecord}
    (hrecord : s.state.records ref = some run) : AuditLedger.Builds {} run.ledger := by
  have hsystem : s.system ref = some (s.view ref run) := by rw [system, hrecord]; rfl
  exact run_system_invariant (P := fun sys => AuditLedger.Builds {} sys.run.ledger)
    (fun _ hborn => RunSystem.builds_born hborn)
    (fun _ _ h hstep => h.trans (RunSystem.builds_step hstep)) (meets_true {} events) hrun hsystem

/-- In every reachable state the ledger of a run verifies in full, and checking it is
    answered so; whatever happens later, its rows stay in place. -/
theorem ledger_verifies {model : ModelAdapter} {events : List ServerEvent} {s : Server}
    (hrun : Transition.run (step model) {} events = some s) {ref : RunRef} {run : RunRecord}
    (hrecord : s.state.records ref = some run) :
    verifyLedgerIntegrity run.ledger.entries = .ok (.ok run.ledger.entries.length) ∧
      (∀ stamp, ∃ entry, entry.type = .auditIntegrityChecked ∧ verifyRunLedger run stamp =
        .ok (run.appendRows [entry], .ok run.ledger.entries.length)) ∧
      ∀ later s', Transition.run (step model) s later = some s' →
        ∃ run', s'.state.records ref = some run' ∧ run.ledger.Builds run'.ledger ∧
          run.ledger.entries <+: run'.ledger.entries := by
  have hsystem : s.system ref = some (s.view ref run) := by rw [system, hrecord]; rfl
  have hintact : run.ledger.Intact := (builds_record hrun hrecord).intact AuditLedger.intact_empty
  refine ⟨hintact.verify.1, verifyRunLedger_intact hintact, fun later s' hlater => ?_⟩
  obtain ⟨sys', hsystem', hgrown⟩ := system_run (P := fun sys => run.ledger.Builds sys.run.ledger)
    (fun _ _ h hstep => h.trans (RunSystem.builds_step hstep)) (run_fresh hrun) hsystem .refl hlater
  obtain ⟨run', hrecord', rfl⟩ := Option.map_eq_some_iff.mp hsystem'
  exact ⟨run', hrecord', hgrown, hgrown.isPrefix⟩

end Server

end

namespace Sample

section
attribute [local instance] node

theorem approvedMessage_ledger_verifies :
    ∃ s run, Transition.run (Server.step FakeModelAdapter.propose) {} approvedMessage = some s ∧
      s.state.records 0 = some run ∧ run.ledger.entries.length = 5 ∧
      verifyLedgerIntegrity run.ledger.entries = .ok (.ok 5) := by
  obtain ⟨s, run, hs, hrecord, -, hlength⟩ := approvedMessage_run
  have hverifies := (Server.ledger_verifies hs hrecord).1
  rw [hlength] at hverifies
  exact ⟨s, run, hs, hrecord, hlength, hverifies⟩

end

end Sample

end ActionHarbor
