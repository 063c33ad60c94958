import ActionHarbor.Spec.ExecutionSteps

/-!
# The rows of a call

Which rows the two halves of `executeAction` append: of what type, about which
operation, at which place, and listed where in the result.

## Key results

- `executeAction_appends`: the rows of the synchronous part
- `resume_appends`: the rows of the continuation
-/

namespace ActionHarbor

/-! ## What a call lists -/

/-- `auditEvents` of a result. -/
def ExecuteActionResult.auditEvents : ExecuteActionResult → List AuditLedgerEntry
  | .ok _ _ _ _ auditEvents | .capability _ auditEvents | .precondition _ auditEvents
  | .idempotency auditEvents | .postcondition auditEvents | .unknownOutcome _ auditEvents
  | .reconciliationRequired _ auditEvents | .adapter _ auditEvents => auditEvents

/-- The rows a call has appended by its first `await` or its end, as it lists them. -/
def CallProgress.rows : CallProgress → List AuditLedgerEntry
  | .done (.returned result) => result.auditEvents
  | .done (.threw _) => []
  | .waiting call => call.auditEvents

/-- The types of these rows. -/
def CallProgress.rowTypes : CallProgress → List AuditEventType
  | .done (.returned (.precondition _ _)) => [.preconditionFailed]
  | .done (.returned (.idempotency _)) => [.duplicateReplayDetected]
  | .done (.returned (.ok _ _ _ _ _)) => [.duplicateReplayDetected]
  | .done _ => []
  | .waiting (.executing _) | .waiting (.refused _ _) => [.executionStarted]
  | .waiting (.lookingUp _) => []

/-- The types of the rows a continuation appends. -/
def Settled.rowTypes : Settled → List AuditEventType
  | .returned (.ok _ _ _ _ _) => [.postconditionVerified]
  | .returned (.postcondition _) => [.postconditionFailed]
  | .returned (.unknownOutcome _ _) => [.executionUnknown]
  | .returned (.reconciliationRequired _ _) => [.reconciliationRequired]
  | _ => []

/-- A ledger grown by rows of these types about one operation. -/
structure Appends (ledger ledger' : AuditLedger) (operationId : JsString)
    (types : List AuditEventType) (rows : List AuditLedgerEntry) : Prop where
  entries : ledger'.entries = ledger.entries ++ rows
  types : rows.map (·.type) = types
  operationId : ∀ row ∈ rows, row.operationId = some operationId
  sequence : rows.map (·.sequence) = List.range' (ledger.entries.length + 1) rows.length

/-- Nothing is appended. -/
theorem Appends.refl (ledger : AuditLedger) (operationId : JsString) :
    Appends ledger ledger operationId [] [] where
  entries := (List.append_nil _).symm
  types := rfl
  operationId _ h := by cases h
  sequence := rfl

section
variable [Host]

/-- A row that `append` built takes the next place. -/
theorem AuditLedger.append_eq_ok {ledger ledger' : AuditLedger} {input : AuditEventInput}
    {stamp : Stamp} {entry : AuditLedgerEntry}
    (h : ledger.append input stamp = .ok (ledger', entry)) :
    ledger' = ⟨ledger.entries ++ [entry]⟩ ∧ entry.type = input.type ∧
      entry.operationId = input.operationId ∧ entry.sequence = ledger.entries.length + 1 := by
  rw [append, buildLedgerEntry] at h
  generalize computeEntryHash _ = hashed at h
  cases hashed with
  | error e => cases h
  | ok hash =>
    cases h
    exact ⟨rfl, rfl, rfl, rfl⟩

/-- One of the gateway's events. -/
theorem audit_appends {ledger ledger' : AuditLedger} {operationId : JsString}
    {type : AuditEventType} {payload : List (JsString × JsValue)} {stamp : Stamp}
    {entry : AuditLedgerEntry}
    (h : audit ledger operationId type payload stamp = .ok (ledger', entry)) :
    Appends ledger ledger' operationId [type] [entry] := by
  obtain ⟨rfl, htype, hoperation, hsequence⟩ := AuditLedger.append_eq_ok h
  exact {
    entries := rfl
    types := congrArg (fun type => [type]) htype
    operationId := fun row hrow => by rw [List.mem_singleton.mp hrow, hoperation]
    sequence := congrArg (fun sequence => [sequence]) hsequence }

/-! ## The synchronous part -/

/-- The rows of a call that has come this far. -/
def RowsOf (shared : Shared) (operationId : JsString) (result : Shared × CallProgress) : Prop :=
  Appends shared.ledger result.1.ledger operationId result.2.rowTypes result.2.rows

omit [Host] in
/-- A call that ends without a row. -/
private theorem rowsOf_silent (shared : Shared) (operationId : JsString) {settled : Settled}
    (htypes : CallProgress.rowTypes (.done settled) = [])
    (hrows : CallProgress.rows (.done settled) = []) :
    RowsOf shared operationId (shared, .done settled) := by
  rw [RowsOf, htypes, hrows]
  exact .refl _ _

/-- A call that appends one row and goes on with it. -/
private theorem rowsOf_withAudit {before shared : Shared} {operationId : JsString}
    {type : AuditEventType} {payload : List (JsString × JsValue)} {stamp : Stamp}
    {next : Shared → AuditLedgerEntry → Shared × CallProgress}
    (hledger : ∀ shared entry, (next shared entry).1.ledger = shared.ledger)
    (htypes : ∀ shared entry, (next shared entry).2.rowTypes = [type])
    (hrows : ∀ shared entry, (next shared entry).2.rows = [entry])
    (hbefore : shared.ledger = before.ledger) :
    RowsOf before operationId (withAudit shared operationId type payload stamp next) := by
  rw [withAudit_def]
  cases haudit : audit shared.ledger operationId type payload stamp with
  | error e =>
    rw [RowsOf, hbefore]
    exact .refl _ _
  | ok result =>
    obtain ⟨ledger', entry⟩ := result
    rw [RowsOf, hledger, htypes, hrows, ← hbefore]
    exact audit_appends haudit

/-- The rows of the synchronous part of a call. -/
theorem executeAction_appends (shared : Shared) (input : ExecuteActionInput) (reads : CallReads) :
    RowsOf shared input.operation.operationId (executeAction shared input reads) := by
  rw [executeAction]
  cases parseAndValidateCapability input.capabilityRaw input.request reads.now with
  | error reasonCode => exact rowsOf_silent _ _ rfl rfl
  | ok capability =>
    dsimp only
    -- each branch appends at most one row, with its own type
    cases checkPreconditions capability input.precondition with
    | error reasonCodes =>
      exact rowsOf_withAudit (fun _ _ => rfl) (fun _ _ => rfl) (fun _ _ => rfl) rfl
    | ok _ =>
      dsimp only
      cases hashCanonical input.params with
      | error e => exact rowsOf_silent _ _ rfl rfl
      | ok payloadHash =>
        dsimp only
        cases shared.operationStore.check input.operation.idempotencyKey payloadHash with
        | conflict =>
          exact rowsOf_withAudit (fun _ _ => rfl) (fun _ _ => rfl) (fun _ _ => rfl) rfl
        | duplicate prior =>
          dsimp only [reconcileDuplicate]
          split
          · exact rowsOf_withAudit (fun _ _ => rfl) (fun _ _ => rfl) (fun _ _ => rfl) rfl
          split
          · exact rowsOf_silent _ _ rfl rfl
          · exact .refl _ _
        | new =>
          dsimp only [executeFresh]
          cases shared.registry.consume capability.id capability.nonce with
          | error reasonCode => exact rowsOf_silent _ _ rfl rfl
          | ok registry =>
            refine rowsOf_withAudit (fun _ _ => rfl) (fun _ _ => ?_) (fun _ _ => ?_) rfl
            · rw [invokeAdapter]
              split <;> rfl
            · rw [invokeAdapter]
              split <;> rfl

/-! ## The continuation -/

/-- The rows of a continuation, behind those the call had appended before. -/
def MoreRowsOf (shared : Shared) (operationId : JsString) (auditEvents : List AuditLedgerEntry)
    (result : Shared × Settled) : Prop :=
  ∃ rows, Appends shared.ledger result.1.ledger operationId result.2.rowTypes rows ∧
    ∀ returned, result.2 = .returned returned → returned.auditEvents = auditEvents ++ rows

/-- An outcome that is recorded and then audited. -/
private theorem moreRowsOf_recordAndAudit {shared : Shared} {record : OperationRecord}
    {operationId : JsString} {type : AuditEventType} {payload : List (JsString × JsValue)}
    {stamp : Stamp} {result : AuditLedgerEntry → ExecuteActionResult}
    {auditEvents : List AuditLedgerEntry}
    (htypes : ∀ entry, Settled.rowTypes (.returned (result entry)) = [type])
    (hrows : ∀ entry, (result entry).auditEvents = auditEvents ++ [entry]) :
    MoreRowsOf shared operationId auditEvents
      (recordAndAudit shared record operationId type payload stamp result) := by
  rw [recordAndAudit_def]
  cases haudit : audit shared.ledger operationId type payload stamp with
  | error e => exact ⟨[], .refl _ _, fun _ h => by cases h⟩
  | ok appended =>
    obtain ⟨ledger', entry⟩ := appended
    -- the new row is the last of those returned
    refine ⟨[entry], ?_, ?_⟩
    · dsimp only
      rw [htypes]
      exact audit_appends haudit
    · intro returned hreturned
      cases hreturned
      exact hrows entry

private theorem moreRowsOf_finalizeFromReceipt (shared : Shared) (input : ExecuteActionInput)
    (receipt : JsValue) (payloadHash capabilityId : JsString) (reconciled : Bool)
    (auditEvents : List AuditLedgerEntry) (stamp : Stamp) :
    MoreRowsOf shared input.operation.operationId auditEvents
      (finalizeFromReceipt shared input receipt payloadHash capabilityId reconciled auditEvents
        stamp) := by
  rw [finalizeFromReceipt]
  split
  · exact moreRowsOf_recordAndAudit (fun _ => rfl) fun _ => rfl
  · exact moreRowsOf_recordAndAudit (fun _ => rfl) fun _ => rfl

/-- The rows of the continuation of a call. -/
theorem resume_appends {shared : Shared} {waiting : Waiting} {wakeup : Wakeup} {stamp : Stamp}
    {result : Shared × Settled} (h : waiting.resume wakeup shared stamp = some result) :
    MoreRowsOf shared waiting.input.operation.operationId waiting.auditEvents result := by
  cases waiting with
  | executing call =>
    cases wakeup with
    | executeResolved receipt =>
      obtain rfl := Option.some.inj h
      exact moreRowsOf_finalizeFromReceipt shared call.input receipt call.payloadHash
        call.capability.id false call.auditEvents stamp
    | executeRejected error =>
      obtain rfl := Option.some.inj h
      -- a rejected promise leaves no row
      rw [afterRace]
      split
      · exact ⟨[], .refl _ _, fun _ h => by cases h⟩
      · refine ⟨[], .refl _ _, fun returned hreturned => ?_⟩
        cases hreturned
        exact (List.append_nil _).symm
    | timerFired =>
      obtain rfl := Option.some.inj h
      simp only [afterRace]
      exact moreRowsOf_recordAndAudit (fun _ => rfl) fun _ => rfl
    | refusalDelivered | lookupSettled _ => cases h
  | refused call reasonCode =>
    cases wakeup with
    | refusalDelivered =>
      obtain rfl := Option.some.inj h
      refine ⟨[], .refl _ _, fun returned hreturned => ?_⟩
      cases hreturned
      exact (List.append_nil _).symm
    | executeResolved _ | executeRejected _ | timerFired | lookupSettled _ => cases h
  | lookingUp call =>
    cases wakeup with
    | lookupSettled answer =>
      obtain rfl := Option.some.inj h
      cases answer with
      | rejected => exact ⟨[], .refl _ _, fun _ h => by cases h⟩
      | resolved value =>
        simp only [afterLookup]
        cases value.getProp (js "status") with
        | none => exact ⟨[], .refl _ _, fun _ h => by cases h⟩
        | some status =>
          dsimp only
          split
          · split
            · exact ⟨[], .refl _ _, fun _ h => by cases h⟩
            · rename_i ledger' entry haudit
              refine ⟨[entry], audit_appends haudit, fun returned hreturned => ?_⟩
              cases hreturned
              rfl
          · exact moreRowsOf_finalizeFromReceipt shared call.input _ call.prior.payloadHash
              call.prior.capabilityId true [] stamp
    | executeResolved _ | executeRejected _ | timerFired | refusalDelivered => cases h

end

end ActionHarbor
