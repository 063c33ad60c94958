import ActionHarbor.ForStd.Transition
import ActionHarbor.Model.LedgerInterleaving
import ActionHarbor.Spec.AuditRows
import ActionHarbor.Spec.WorldSteps

/-!
# Write-ahead audit

However calls on one ledger interleave, the rows of a call are the `auditEvents` of its
result, its `EXECUTION_STARTED` row is in the ledger before the adapter is invoked, and
its `POSTCONDITION_VERIFIED` row comes after the record of the success.

## Key results

- `resume_eq_writes`: a continuation carries out its writes, in order
- `LedgerWorld.step_cases`: what a step does to the ledger
- `LedgerWorld.Traced.step`: one step keeps rows and calls in step
- `LedgerWorld.write_ahead`: what holds after every run
-/

namespace ActionHarbor

/-! ## Reading the trace -/

/-- The row of an observation. -/
def LedgerObservation.row : LedgerObservation → Option AuditLedgerEntry
  | .appended _ entry | .appendedElsewhere entry => some entry
  | _ => none

/-- The row a call appended. -/
def LedgerObservation.rowOf (c : CallId) : LedgerObservation → Option AuditLedgerEntry
  | .appended owner entry => if owner = c then some entry else none
  | _ => none

/-- An invocation of `adapter.execute` for an operation. -/
def LedgerObservation.invokes (operationId : JsString) : LedgerObservation → Bool
  | .executeInvoked _ operation => operation.operationId = operationId
  | _ => false

/-- What an observation needs before it: an invocation of the adapter the
    `EXECUTION_STARTED` row of its own call, a `POSTCONDITION_VERIFIED` row the record of the
    success. -/
def LedgerObservation.Prepared (before : List LedgerObservation) : LedgerObservation → Prop
  | .executeInvoked c operation =>
    ∃ entry, .appended c entry ∈ before ∧ entry.type = .executionStarted ∧
      entry.operationId = some operation.operationId
  | .appended c entry =>
    entry.type = .postconditionVerified →
    ∃ record, .recorded c record ∈ before ∧ record.state = .succeeded ∧
      entry.operationId = some record.operationId
  | _ => True

/-- The row of an execution of an operation. -/
def AuditLedgerEntry.starts (operationId : JsString) (entry : AuditLedgerEntry) : Bool :=
  entry.type = .executionStarted && entry.operationId = some operationId

/-- The row of a write. -/
def CallWrite.row : CallWrite → Option AuditLedgerEntry
  | .append entry => some entry
  | .record _ => none

@[simp] theorem filterMap_row_append (rows : List AuditLedgerEntry) :
    (rows.map CallWrite.append).filterMap CallWrite.row = rows := by
  simp [List.filterMap_map, Function.comp_def, CallWrite.row]

@[simp] theorem filterMap_row_observation (c : CallId) (writes : List CallWrite) :
    (writes.map (·.observation c)).filterMap LedgerObservation.row =
      writes.filterMap CallWrite.row := by
  rw [List.filterMap_map]
  congr 1
  funext write
  cases write <;> rfl

@[simp] theorem filterMap_rowOf_observation (c : CallId) (writes : List CallWrite) :
    (writes.map (·.observation c)).filterMap (LedgerObservation.rowOf c) =
      writes.filterMap CallWrite.row := by
  rw [List.filterMap_map]
  congr 1
  funext write
  cases write <;> simp [CallWrite.observation, LedgerObservation.rowOf, CallWrite.row]

theorem filterMap_rowOf_of_ne {c other : CallId} (h : c ≠ other) (writes : List CallWrite) :
    (writes.map (·.observation c)).filterMap (LedgerObservation.rowOf other) = [] := by
  rw [List.filterMap_map, List.filterMap_eq_nil_iff]
  intro write _
  cases write <;> simp [CallWrite.observation, LedgerObservation.rowOf, h]

@[simp] theorem countP_invokes_observation (c : CallId) (operationId : JsString)
    (writes : List CallWrite) :
    (writes.map (·.observation c)).countP (LedgerObservation.invokes operationId) = 0 := by
  rw [List.countP_eq_zero, List.forall_mem_map]
  intro write _
  cases write <;> simp [CallWrite.observation, LedgerObservation.invokes]

/-- A write is no end of a call. -/
theorem settled_notMem_observation (c other : CallId) (outcome : Settled)
    (writes : List CallWrite) : .settled other outcome ∉ writes.map (·.observation c) := by
  rw [List.mem_map]
  rintro ⟨write, -, heq⟩
  cases write <;> cases heq

/-- The rows a ledger has gained are those it was grown by. -/
theorem Appends.rowsSince {ledger ledger' : AuditLedger} {operationId : JsString}
    {types : List AuditEventType} {rows : List AuditLedgerEntry}
    (h : Appends ledger ledger' operationId types rows) : ledger'.rowsSince ledger = rows := by
  rw [AuditLedger.rowsSince, h.entries, List.drop_left]

/-! ## The writes of a continuation -/

/-- The rows among the writes are what the ledger grows by. -/
theorem foldl_write_entries (writes : List CallWrite) (shared : Shared) :
    (writes.foldl Shared.write shared).ledger.entries =
      shared.ledger.entries ++ writes.filterMap CallWrite.row := by
  induction writes generalizing shared with
  | nil => exact (List.append_nil _).symm
  | cons write writes ih =>
    rw [List.foldl_cons, ih]
    cases write <;> simp [Shared.write, CallWrite.row, List.filterMap_cons]

section
variable [Host]

/-- Appending an event writes its row. -/
private theorem audit_eq_write {shared : Shared} {ledger : AuditLedger} {operationId : JsString}
    {type : AuditEventType} {payload : List (JsString × JsValue)} {stamp : Stamp}
    {entry : AuditLedgerEntry}
    (h : audit shared.ledger operationId type payload stamp = .ok (ledger, entry)) :
    auditWrites shared operationId type payload stamp = [.append entry] ∧
      { shared with ledger := ledger } = shared.write (.append entry) := by
  obtain ⟨rfl, -⟩ := AuditLedger.append_eq_ok h
  exact ⟨by rw [auditWrites, h], rfl⟩

/-- Recording and auditing makes two writes, the record first. -/
private theorem recordAndAudit_eq_writes (shared : Shared) (record : OperationRecord)
    (operationId : JsString) (type : AuditEventType) (payload : List (JsString × JsValue))
    (stamp : Stamp) (result : AuditLedgerEntry → ExecuteActionResult) :
    (recordAndAudit shared record operationId type payload stamp result).1 =
      (.record record :: auditWrites shared operationId type payload stamp).foldl Shared.write
        shared := by
  rw [recordAndAudit_def]
  cases haudit : audit shared.ledger operationId type payload stamp with
  | error error =>
    rw [auditWrites, haudit]
    rfl
  | ok appended =>
    obtain ⟨ledger, entry⟩ := appended
    obtain ⟨rfl, -⟩ := AuditLedger.append_eq_ok haudit
    rw [auditWrites, haudit]
    rfl

private theorem finalizeFromReceipt_eq_writes (shared : Shared) (input : ExecuteActionInput)
    (receipt : JsValue) (payloadHash capabilityId : JsString) (reconciled : Bool)
    (auditEvents : List AuditLedgerEntry) (stamp : Stamp) :
    (finalizeFromReceipt shared input receipt payloadHash capabilityId reconciled auditEvents
      stamp).1 =
      (finalizeWrites shared input receipt payloadHash capabilityId reconciled stamp).foldl
        Shared.write shared := by
  rw [finalizeFromReceipt, finalizeWrites]
  split <;> exact recordAndAudit_eq_writes ..

/-- A call that is resumed carries out its writes, one after the other. -/
theorem resume_eq_writes {shared : Shared} {waiting : Waiting} {wakeup : Wakeup} {stamp : Stamp}
    {result : Shared × Settled} (h : waiting.resume wakeup shared stamp = some result) :
    result.1 = (waiting.writeList wakeup shared stamp).foldl Shared.write shared := by
  cases waiting with
  | executing call =>
    cases wakeup with
    | executeResolved receipt =>
      obtain rfl := Option.some.inj h
      exact finalizeFromReceipt_eq_writes ..
    | executeRejected error =>
      obtain rfl := Option.some.inj h
      simp only [Waiting.writeList, afterRaceWrites, afterRace]
      cases error.errorMessage <;> rfl
    | timerFired =>
      obtain rfl := Option.some.inj h
      simp only [Waiting.writeList, afterRaceWrites, afterRace]
      exact recordAndAudit_eq_writes ..
    | refusalDelivered | lookupSettled _ => cases h
  | refused call reasonCode =>
    cases wakeup with
    | refusalDelivered =>
      obtain rfl := Option.some.inj h
      rfl
    | executeResolved _ | executeRejected _ | timerFired | lookupSettled _ => cases h
  | lookingUp call =>
    cases wakeup with
    | lookupSettled answer =>
      obtain rfl := Option.some.inj h
      cases answer with
      -- a lookup that fails, or says nothing, writes nothing
      | rejected => rfl
      | resolved value =>
        rw [Waiting.writeList, afterLookupWrites]
        simp only [afterLookup]
        cases value.getProp (js "status") with
        | none => rfl
        | some status =>
          dsimp only
          split
          · cases haudit : audit shared.ledger call.input.operation.operationId
              .reconciliationRequired
              (reasonCodePayload VerificationReasonCode.unknownOutcome.toJs) stamp with
            | error error =>
              rw [auditWrites, haudit]
              rfl
            | ok appended =>
              obtain ⟨hwrites, happended⟩ := audit_eq_write haudit
              rw [hwrites]
              exact happended
          · exact finalizeFromReceipt_eq_writes ..
    | executeResolved _ | executeRejected _ | timerFired | refusalDelivered => cases h

/-- An event is written with its type, and nothing else is. -/
private theorem of_mem_auditWrites {shared : Shared} {operationId : JsString}
    {type : AuditEventType} {payload : List (JsString × JsValue)} {stamp : Stamp}
    {entry : AuditLedgerEntry}
    (h : .append entry ∈ auditWrites shared operationId type payload stamp) :
    entry.type = type ∧ auditWrites shared operationId type payload stamp = [.append entry] := by
  cases haudit : audit shared.ledger operationId type payload stamp with
  | error error =>
    rw [auditWrites, haudit] at h
    cases h
  | ok appended =>
    obtain ⟨ledger, row⟩ := appended
    have hwrites := (audit_eq_write haudit).1
    rw [hwrites, List.mem_singleton, CallWrite.append.injEq] at h
    subst h
    exact ⟨(AuditLedger.append_eq_ok haudit).2.1, hwrites⟩

/-- So no event of another type verifies a postcondition. -/
private theorem verified_notMem_auditWrites {shared : Shared} {operationId : JsString}
    {type : AuditEventType} {payload : List (JsString × JsValue)} {stamp : Stamp}
    {entry : AuditLedgerEntry} (htype : entry.type = .postconditionVerified)
    (hne : type ≠ .postconditionVerified) :
    .append entry ∉ auditWrites shared operationId type payload stamp :=
  fun hmem => hne ((of_mem_auditWrites hmem).1.symm.trans htype)

/-- A receipt that is finalized with a `POSTCONDITION_VERIFIED` row is recorded first. -/
private theorem finalizeWrites_of_verified {shared : Shared} {input : ExecuteActionInput}
    {receipt : JsValue} {payloadHash capabilityId : JsString} {reconciled : Bool} {stamp : Stamp}
    {entry : AuditLedgerEntry} (htype : entry.type = .postconditionVerified)
    (h : .append entry ∈
      finalizeWrites shared input receipt payloadHash capabilityId reconciled stamp) :
    ∃ record, finalizeWrites shared input receipt payloadHash capabilityId reconciled stamp =
        [.record record, .append entry] ∧ record.state = .succeeded ∧
      record.operationId = input.operation.operationId := by
  rw [finalizeWrites] at h ⊢
  split at h
  · rename_i hverified
    have hmem := (List.mem_cons.mp h).resolve_left (by rintro ⟨⟩)
    rw [if_pos hverified, (of_mem_auditWrites hmem).2]
    exact ⟨_, rfl, rfl, rfl⟩
  · have hmem := (List.mem_cons.mp h).resolve_left (by rintro ⟨⟩)
    exact absurd hmem (verified_notMem_auditWrites htype (by simp))

/-- A continuation that appends a `POSTCONDITION_VERIFIED` row writes its record first, and
    nothing else. -/
theorem writes_of_verified {shared : Shared} {waiting : Waiting} {wakeup : Wakeup} {stamp : Stamp}
    {entry : AuditLedgerEntry} (hentry : .append entry ∈ waiting.writeList wakeup shared stamp)
    (htype : entry.type = .postconditionVerified) :
    ∃ record, waiting.writeList wakeup shared stamp = [.record record, .append entry] ∧
      record.state = .succeeded ∧
      record.operationId = waiting.input.operation.operationId := by
  cases waiting with
  | executing call =>
    cases wakeup with
    | executeResolved receipt => exact finalizeWrites_of_verified htype hentry
    | executeRejected error =>
      rw [Waiting.writeList, afterRaceWrites] at hentry
      cases herror : error.errorMessage <;> simp [herror] at hentry
    | timerFired =>
      have hmem := (List.mem_cons.mp hentry).resolve_left (by rintro ⟨⟩)
      exact absurd hmem (verified_notMem_auditWrites htype (by simp))
    | refusalDelivered | lookupSettled _ => cases hentry
  | refused call reasonCode =>
    cases wakeup with
    | refusalDelivered => cases List.mem_singleton.mp hentry
    | executeResolved _ | executeRejected _ | timerFired | lookupSettled _ => cases hentry
  | lookingUp call =>
    cases wakeup with
    | lookupSettled answer =>
      -- only an answer that is not unknown is finalized
      simp only [Waiting.writeList, afterLookupWrites] at hentry ⊢
      cases answer with
      | rejected => cases hentry
      | resolved value =>
        dsimp only at hentry ⊢
        cases hstatus : value.getProp (js "status") with
        | none => simp [hstatus] at hentry
        | some status =>
          simp only [hstatus] at hentry ⊢
          cases hunknown : status.isString (js "unknown") with
          | true =>
            rw [hunknown, if_pos rfl] at hentry
            exact absurd hentry (verified_notMem_auditWrites htype (by simp))
          | false =>
            rw [hunknown, if_neg Bool.false_ne_true] at hentry
            rw [if_neg Bool.false_ne_true]
            exact finalizeWrites_of_verified htype hentry
    | executeResolved _ | executeRejected _ | timerFired | refusalDelivered => cases hentry

end

/-! ## Progress and observations -/

/-- What a call does after its rows appends none. -/
@[simp] theorem CallProgress.filterMap_observations (c : CallId) (progress : CallProgress) :
    (progress.observations c).filterMap LedgerObservation.row = [] := by
  unfold CallProgress.observations
  split <;> rfl

@[simp] theorem CallProgress.filterMap_rowOf_observations (c other : CallId)
    (progress : CallProgress) :
    (progress.observations c).filterMap (LedgerObservation.rowOf other) = [] := by
  unfold CallProgress.observations
  split <;> rfl

/-- A call that settles in its synchronous part is done. -/
theorem CallProgress.done_of_settled {c other : CallId} {progress : CallProgress}
    {outcome : Settled} (h : .settled other outcome ∈ progress.observations c) :
    other = c ∧ progress = .done outcome := by
  unfold CallProgress.observations at h
  split at h
  · cases List.mem_singleton.mp h
    exact ⟨rfl, rfl⟩
  · cases List.mem_singleton.mp h
  · cases h

/-- A call that invokes the adapter has the row of its execution. -/
theorem CallProgress.executionStarted_of_invoked {c c' : CallId} {progress : CallProgress}
    {operation : AdapterOperation}
    (h : .executeInvoked c' operation ∈ progress.observations c) :
    c' = c ∧ progress.rowTypes = [.executionStarted] ∧
      ∃ call, progress = .waiting (.executing call) ∧ call.input.operation = operation := by
  unfold CallProgress.observations at h
  split at h
  · cases List.mem_singleton.mp h
  · rename_i call
    cases List.mem_singleton.mp h
    exact ⟨rfl, rfl, call, rfl, rfl⟩
  · cases h

namespace LedgerWorld
variable {ρ σ : Type}

/-- The rows a call has appended, oldest first. -/
def appendedBy (w : LedgerWorld ρ σ) (c : CallId) : List AuditLedgerEntry :=
  w.trace.filterMap (LedgerObservation.rowOf c)

/-- What is known of a ledger and its trace at any moment. -/
structure WriteAhead (initial w : LedgerWorld ρ σ) : Prop where
  /-- every new row of the ledger is in the trace -/
  ledger : w.ledger.entries = initial.ledger.entries ++ w.trace.filterMap LedgerObservation.row
  audited : ∀ c result, .settled c (.returned result) ∈ w.trace →
    w.appendedBy c = result.auditEvents
  started : ∀ before c operation after, w.trace = before ++ .executeInvoked c operation :: after →
    ∃ entry, .appended c entry ∈ before ∧ entry.type = .executionStarted ∧
      entry.operationId = some operation.operationId
  counted : ∀ operationId, w.trace.countP (LedgerObservation.invokes operationId) ≤
    w.ledger.entries.countP (AuditLedgerEntry.starts operationId)
  verified : ∀ before c entry after, w.trace = before ++ .appended c entry :: after →
    entry.type = .postconditionVerified →
    ∃ record, .recorded c record ∈ before ∧ record.state = .succeeded ∧
      entry.operationId = some record.operationId

section
variable [DecidableEq ρ] [DecidableEq σ]

/-- A `POSTCONDITION_VERIFIED` row of a call is appended to a ledger when the store
    already holds the success: the step that appends it makes two writes, the record and
    then the row, and settles the call behind them. -/
def RecordsFirst (w w' : LedgerWorld ρ σ) : Prop :=
  ∀ c entry, .appended c entry ∈ w'.trace.drop w.trace.length →
    entry.type = .postconditionVerified →
    ∃ objects call record outcome, ∃ between : Shared, w.pending c = some (objects, call) ∧
      entry.operationId = some call.input.operation.operationId ∧
      w'.trace = w.trace ++ [.recorded c record, .appended c entry, .settled c outcome] ∧
      between = (w.shared objects).write (.record record) ∧
      between.ledger = w.ledger ∧
      between.operationStore.lookup call.input.operation.operationId = some record ∧
      record.state = .succeeded ∧
      w'.shared objects = between.appendRow entry

/-! ## Steps -/

variable [Host]

/-- What a step does to the ledger and its trace. -/
inductive StepCases (w : LedgerWorld ρ σ) : LedgerWorld ρ σ → Prop
  | silent (registries : ρ → CapabilityRegistry) : StepCases w { w with registries := registries }
  | elsewhere (entry : AuditLedgerEntry) :
      StepCases w { w with
        ledger := ⟨w.ledger.entries ++ [entry]⟩
        trace := w.trace ++ [.appendedElsewhere entry] }
  | started (objects : CallObjects ρ σ) (input : ExecuteActionInput) (shared : Shared)
      (progress : CallProgress)
      (hoperation : ∀ waiting, progress = .waiting waiting → waiting.input = input)
      (hrows : Appends w.ledger shared.ledger input.operation.operationId progress.rowTypes
        progress.rows) :
      StepCases w
        { registries := Function.update w.registries objects.registry shared.registry
          stores := Function.update w.stores objects.store shared.operationStore
          ledger := shared.ledger
          pending := Function.update w.pending w.nextCall (progress.pending objects)
          nextCall := w.nextCall + 1
          trace := w.trace ++ (progress.rows.map CallWrite.append).map (·.observation w.nextCall) ++
            progress.observations w.nextCall }
  | woke (c : CallId) (objects : CallObjects ρ σ) (waiting : Waiting) (shared : Shared)
      (outcome : Settled) (writes : List CallWrite)
      (hpending : w.pending c = some (objects, waiting))
      (hwrites : shared = writes.foldl Shared.write (w.shared objects))
      (hverified : ∀ entry, .append entry ∈ writes → entry.type = .postconditionVerified →
        ∃ record, writes = [.record record, .append entry] ∧ record.state = .succeeded ∧
          record.operationId = waiting.input.operation.operationId)
      (hrows : Appends w.ledger shared.ledger waiting.input.operation.operationId
        outcome.rowTypes (writes.filterMap CallWrite.row))
      (hlisted : ∀ result, outcome = .returned result →
        result.auditEvents = waiting.auditEvents ++ writes.filterMap CallWrite.row) :
      StepCases w
        { w with
          registries := Function.update w.registries objects.registry shared.registry
          stores := Function.update w.stores objects.store shared.operationStore
          ledger := shared.ledger
          pending := Function.update w.pending c none
          trace := w.trace ++ writes.map (·.observation c) ++ [.settled c outcome] }

/-- A step of the world is one of these. -/
theorem step_cases {w w' : LedgerWorld ρ σ} {e : LedgerEvent ρ σ} (h : w.step e = some w') :
    StepCases w w' := by
  cases e with
  | record registry capability =>
    obtain rfl := Option.some.inj h
    exact .silent _
  | append input stamp =>
    rw [step] at h
    cases happend : w.ledger.append input stamp with
    | error e =>
      rw [happend] at h
      obtain rfl := Option.some.inj h
      exact .silent _
    | ok result =>
      obtain ⟨ledger, entry⟩ := result
      obtain ⟨rfl, -⟩ := AuditLedger.append_eq_ok happend
      rw [happend] at h
      obtain rfl := Option.some.inj h
      exact .elsewhere entry
  | start objects input reads =>
    -- what is known of the result is taken before the result is split
    have hrows : RowsOf (w.shared objects) input.operation.operationId
        (executeAction (w.shared objects) input reads) := executeAction_appends ..
    have hinput := executeAction_cases (w.shared objects) input reads
    rw [step] at h
    generalize executeAction (w.shared objects) input reads = result at h hrows hinput
    obtain ⟨shared, progress⟩ := result
    have hrows : Appends w.ledger shared.ledger input.operation.operationId progress.rowTypes
        progress.rows := hrows
    obtain rfl := Option.some.inj h
    rw [setShared, hrows.rowsSince]
    refine .started objects input shared progress (fun waiting hwaiting => ?_) hrows
    subst hwaiting
    exact hinput.waiting_input
  | wake c wakeup stamp =>
    rw [step] at h
    cases hpending : w.pending c with
    | none =>
      rw [hpending] at h
      cases h
    | some entry =>
      obtain ⟨objects, call⟩ := entry
      rw [hpending] at h
      obtain ⟨⟨shared, outcome⟩, hresume, rfl⟩ := Option.map_eq_some_iff.mp h
      have hwrites := resume_eq_writes hresume
      obtain ⟨rows, hrows, hlisted⟩ := resume_appends hresume
      -- the rows are those among the writes
      have hsame :
          (call.writeList wakeup (w.shared objects) stamp).filterMap CallWrite.row = rows := by
        have hentries := hrows.entries
        rw [hwrites, foldl_write_entries] at hentries
        exact List.append_cancel_left hentries
      subst hsame
      exact .woke c objects call shared outcome _ hpending hwrites
        (fun entry hentry htype => writes_of_verified hentry htype) hrows hlisted

end

/-! ## Growing traces -/

/-- Every observation has what it needs before it. -/
def InOrder (trace : List LedgerObservation) : Prop :=
  ∀ before observation after, trace = before ++ observation :: after → observation.Prepared before

/-- What comes later only has to be looked at by itself. -/
theorem InOrder.append {trace more : List LedgerObservation} (h : InOrder trace)
    (hmore : ∀ before observation after, more = before ++ observation :: after →
      observation.Prepared (trace ++ before)) : InOrder (trace ++ more) := by
  intro before observation after hsplit
  rcases List.append_eq_append_iff.mp hsplit with ⟨rest, rfl, hrest⟩ | ⟨rest, rfl, hrest⟩
  · exact hmore rest observation after hrest
  · cases rest with
    | nil => simpa using hmore [] observation after hrest.symm
    | cons first rest =>
      obtain ⟨rfl, -⟩ := List.cons.inj hrest
      exact h before observation rest rfl

/-- So need not what needs nothing. -/
theorem InOrder.append_of_forall {trace more : List LedgerObservation} (h : InOrder trace)
    (hmore : ∀ observation ∈ more, ∀ before, observation.Prepared before) :
    InOrder (trace ++ more) :=
  h.append fun before observation after hsplit =>
    hmore observation (by simp [hsplit]) (trace ++ before)

/-- The synchronous part of a call verifies nothing. -/
theorem postconditionVerified_notMem_rowTypes (progress : CallProgress) :
    .postconditionVerified ∉ progress.rowTypes := by
  unfold CallProgress.rowTypes
  split <;> simp

/-- The rows of a call that invokes the adapter are the row of its execution. -/
theorem starts_of_invoked {ledger ledger' : AuditLedger} {operationId : JsString}
    {progress : CallProgress}
    (hrows : Appends ledger ledger' operationId progress.rowTypes progress.rows)
    (htypes : progress.rowTypes = [.executionStarted]) :
    ∃ entry, progress.rows = [entry] ∧ entry.type = .executionStarted ∧
      entry.operationId = some operationId := by
  have hmap : progress.rows.map (·.type) = [.executionStarted] := hrows.types.trans htypes
  obtain ⟨entry, hentry, htype⟩ := List.map_eq_singleton_iff.mp hmap
  exact ⟨entry, hentry, htype, hrows.operationId entry (by simp [hentry])⟩

/-- An invocation for an operation is made behind a row of its execution. -/
theorem countP_invokes_le {ledger ledger' : AuditLedger} {input : ExecuteActionInput}
    {progress : CallProgress} {operationId : JsString} (c : CallId)
    (hinput : ∀ waiting, progress = .waiting waiting → waiting.input = input)
    (hrows : Appends ledger ledger' input.operation.operationId progress.rowTypes progress.rows) :
    (progress.observations c).countP (LedgerObservation.invokes operationId) ≤
      progress.rows.countP (AuditLedgerEntry.starts operationId) := by
  by_cases hinvoked : ∃ c' operation, .executeInvoked c' operation ∈ progress.observations c
  -- an invocation has appended its row just before
  · obtain ⟨c', operation, hmem⟩ := hinvoked
    obtain ⟨-, htypes, call, rfl, -⟩ := CallProgress.executionStarted_of_invoked hmem
    obtain ⟨entry, hentry, htype, hoperation⟩ := starts_of_invoked hrows htypes
    have hcall : call.input = input := hinput _ rfl
    rw [hentry, List.countP_singleton, AuditLedgerEntry.starts, htype, hoperation, ← hcall,
      CallProgress.observations, List.countP_singleton, LedgerObservation.invokes]
    simp
  · rw [List.countP_eq_zero.mpr]
    · exact Nat.zero_le _
    · intro observation hmem hinvokes
      cases observation with
      | executeInvoked c' operation => exact hinvoked ⟨c', operation, hmem⟩
      | recorded | appended | appendedElsewhere | settled => cases hinvokes

section
variable {w w' : LedgerWorld ρ σ} {c : CallId} {writes : List CallWrite}
  {more : List LedgerObservation}

/-- The call that acts has appended its new rows too. -/
theorem appendedBy_self (htrace : w'.trace = w.trace ++ writes.map (·.observation c) ++ more)
    (hmore : ∀ other, more.filterMap (LedgerObservation.rowOf other) = []) :
    w'.appendedBy c = w.appendedBy c ++ writes.filterMap CallWrite.row := by
  rw [appendedBy, htrace, List.filterMap_append, List.filterMap_append, hmore,
    filterMap_rowOf_observation, List.append_nil]
  rfl

/-- The others have not. -/
theorem appendedBy_of_ne (htrace : w'.trace = w.trace ++ writes.map (·.observation c) ++ more)
    (hmore : ∀ other, more.filterMap (LedgerObservation.rowOf other) = []) {other : CallId}
    (hne : c ≠ other) : w'.appendedBy other = w.appendedBy other := by
  rw [appendedBy, htrace, List.filterMap_append, List.filterMap_append, hmore,
    filterMap_rowOf_of_ne hne, List.append_nil, List.append_nil]
  rfl

end

/-! ## The invariant -/

/-- Rows and calls in step: what has been appended, and by whom. -/
structure Traced (initial w : LedgerWorld ρ σ) : Prop where
  ledger : w.ledger.entries = initial.ledger.entries ++ w.trace.filterMap LedgerObservation.row
  audited : ∀ c result, .settled c (.returned result) ∈ w.trace →
    w.appendedBy c = result.auditEvents
  inOrder : InOrder w.trace
  counted : ∀ operationId, w.trace.countP (LedgerObservation.invokes operationId) ≤
    w.ledger.entries.countP (AuditLedgerEntry.starts operationId)
  unused : ∀ c, w.nextCall ≤ c → w.pending c = none ∧ w.appendedBy c = [] ∧
    ∀ outcome, .settled c outcome ∉ w.trace
  waiting : ∀ c objects call, w.pending c = some (objects, call) →
    w.appendedBy c = call.auditEvents ∧ ∀ outcome, .settled c outcome ∉ w.trace

/-- Before anything happens. -/
theorem Traced.initial (registries : ρ → CapabilityRegistry) (stores : σ → OperationStore)
    (ledger : AuditLedger) :
    Traced ({ registries := registries, stores := stores, ledger := ledger } : LedgerWorld ρ σ)
      { registries := registries, stores := stores, ledger := ledger } where
  ledger := (List.append_nil _).symm
  audited _ _ h := by cases h
  inOrder before _ _ h := by cases before <;> cases h
  counted _ := Nat.zero_le _
  unused _ _ := ⟨rfl, rfl, fun _ h => by cases h⟩
  waiting _ _ _ h := by cases h

/-- What is wanted of it. -/
theorem Traced.safe {initial w : LedgerWorld ρ σ} (h : Traced initial w) :
    WriteAhead initial w where
  ledger := h.ledger
  audited := h.audited
  started before c operation after hsplit :=
    h.inOrder before (.executeInvoked c operation) after hsplit
  counted := h.counted
  verified before c entry after hsplit :=
    h.inOrder before (.appended c entry) after hsplit

/-- Rows that are appended elsewhere are no call's. -/
private theorem Traced.elsewhere {initial w : LedgerWorld ρ σ} (h : Traced initial w)
    (entry : AuditLedgerEntry) :
    Traced initial { w with
      ledger := ⟨w.ledger.entries ++ [entry]⟩
      trace := w.trace ++ [.appendedElsewhere entry] } := by
  have hrows : ∀ c, appendedBy { w with
      ledger := ⟨w.ledger.entries ++ [entry]⟩
      trace := w.trace ++ [.appendedElsewhere entry] } c = w.appendedBy c := by
    intro c
    simp [appendedBy, LedgerObservation.rowOf]
  -- a row of other code counts for no call
  refine ⟨?_, ?_, ?_, ?_, ?_, ?_⟩
  · simp [h.ledger, LedgerObservation.row]
  · intro c result hsettled
    rw [hrows]
    exact h.audited c result (by simpa using hsettled)
  · exact h.inOrder.append_of_forall (by simp [LedgerObservation.Prepared])
  · intro operationId
    have hcount := h.counted operationId
    simp only [List.countP_append]
    simp [LedgerObservation.invokes]
    omega
  · intro c hc
    obtain ⟨hpending, hnone, hsettled⟩ := h.unused c hc
    exact ⟨hpending, (hrows c).trans hnone, by simpa using hsettled⟩
  · intro c objects call hpending
    obtain ⟨hlisted, hsettled⟩ := h.waiting c objects call hpending
    exact ⟨(hrows c).trans hlisted, by simpa using hsettled⟩

/-- What a call does in one synchronous part: it makes its writes, and then does what
    appends no more. -/
structure Acts (w w' : LedgerWorld ρ σ) (c : CallId) (writes : List CallWrite)
    (more : List LedgerObservation) : Prop where
  entries : w'.ledger.entries = w.ledger.entries ++ writes.filterMap CallWrite.row
  trace : w'.trace = w.trace ++ writes.map (·.observation c) ++ more
  rowless : more.filterMap LedgerObservation.row = [] ∧
    ∀ other, more.filterMap (LedgerObservation.rowOf other) = []
  nextCall : w.nextCall ≤ w'.nextCall ∧ c < w'.nextCall
  pending : ∀ other, other ≠ c → w'.pending other = w.pending other
  /-- the call has not settled before, and ends with all its rows listed -/
  unsettled : ∀ outcome, .settled c outcome ∉ w.trace
  settles : ∀ other outcome, .settled other outcome ∈ more →
    other = c ∧ w'.pending c = none ∧
      ∀ result, outcome = .returned result →
        w.appendedBy c ++ writes.filterMap CallWrite.row = result.auditEvents
  waits : ∀ objects call, w'.pending c = some (objects, call) →
    w.appendedBy c ++ writes.filterMap CallWrite.row = call.auditEvents
  invokes : ∀ operationId, more.countP (LedgerObservation.invokes operationId) ≤
    (writes.filterMap CallWrite.row).countP (AuditLedgerEntry.starts operationId)

/-- It keeps rows and calls in step. -/
private theorem Traced.acts {initial w w' : LedgerWorld ρ σ} {c : CallId}
    {writes : List CallWrite} {more : List LedgerObservation} (h : Traced initial w)
    (hacts : Acts w w' c writes more) (horder : InOrder w'.trace) : Traced initial w' := by
  have hself : w'.appendedBy c = w.appendedBy c ++ writes.filterMap CallWrite.row :=
    appendedBy_self hacts.trace hacts.rowless.2
  have hothers : ∀ other, c ≠ other → w'.appendedBy other = w.appendedBy other :=
    fun other hne => appendedBy_of_ne hacts.trace hacts.rowless.2 hne
  have hsettled : ∀ other outcome, .settled other outcome ∈ w'.trace →
      .settled other outcome ∈ w.trace ∨ .settled other outcome ∈ more := by
    intro other outcome hmem
    rw [hacts.trace, List.append_assoc, List.mem_append, List.mem_append] at hmem
    rcases hmem with hold | hwrite | hnew
    · exact .inl hold
    · exact absurd hwrite (settled_notMem_observation c other outcome writes)
    · exact .inr hnew
  refine ⟨?_, ?_, horder, ?_, ?_, ?_⟩
  -- ledger, rows of settled calls, counts, unused numbers, waiting calls
  · rw [hacts.entries, h.ledger, hacts.trace, List.filterMap_append, List.filterMap_append,
      filterMap_row_observation, hacts.rowless.1, List.append_nil, List.append_assoc]
  · intro other result hmem
    rcases hsettled other _ hmem with hold | hnew
    · have hne : c ≠ other := fun heq => hacts.unsettled _ (heq ▸ hold)
      rw [hothers other hne]
      exact h.audited other result hold
    · obtain ⟨rfl, -, hlisted⟩ := hacts.settles other _ hnew
      rw [hself, hlisted result rfl]
  · intro operationId
    have hcount := h.counted operationId
    have hnew := hacts.invokes operationId
    rw [hacts.trace, hacts.entries]
    simp only [List.countP_append, countP_invokes_observation]
    omega
  · intro other hother
    obtain ⟨hnoCall, hnoRow, hnoEnd⟩ := h.unused other (Nat.le_trans hacts.nextCall.1 hother)
    have hne : c ≠ other := (Nat.lt_of_lt_of_le hacts.nextCall.2 hother).ne
    refine ⟨(hacts.pending other hne.symm).trans hnoCall, (hothers other hne).trans hnoRow,
      fun outcome hmem => ?_⟩
    rcases hsettled other outcome hmem with hold | hnew
    · exact hnoEnd outcome hold
    · exact hne (hacts.settles other outcome hnew).1.symm
  · intro other objects call hother
    by_cases hc : other = c
    · subst hc
      refine ⟨hself.trans (hacts.waits objects call hother), fun outcome hmem => ?_⟩
      rcases hsettled other outcome hmem with hold | hnew
      · exact hacts.unsettled outcome hold
      · cases hother.symm.trans (hacts.settles other outcome hnew).2.1
    · rw [hacts.pending other hc] at hother
      obtain ⟨hlisted, hnoEnd⟩ := h.waiting other objects call hother
      refine ⟨(hothers other (Ne.symm hc)).trans hlisted, fun outcome hmem => ?_⟩
      rcases hsettled other outcome hmem with hold | hnew
      · exact hnoEnd outcome hold
      · exact hc (hacts.settles other outcome hnew).1

section
variable [DecidableEq ρ] [DecidableEq σ] [Host]

omit [Host] in
/-- One step keeps rows and calls in step. -/
theorem Traced.step {initial w w' : LedgerWorld ρ σ} (h : Traced initial w)
    (hstep : w.StepCases w') : Traced initial w' := by
  cases hstep with
  | silent registries => exact ⟨h.ledger, h.audited, h.inOrder, h.counted, h.unused, h.waiting⟩
  | elsewhere entry => exact h.elsewhere entry
  | started objects input shared progress hoperation hrows =>
    -- the number of a new call has no row and no end yet
    obtain ⟨-, hunused, hunsettled⟩ := h.unused w.nextCall (Nat.le_refl _)
    have hacts : Acts w
        { registries := Function.update w.registries objects.registry shared.registry
          stores := Function.update w.stores objects.store shared.operationStore
          ledger := shared.ledger
          pending := Function.update w.pending w.nextCall (progress.pending objects)
          nextCall := w.nextCall + 1
          trace := w.trace ++ (progress.rows.map CallWrite.append).map (·.observation w.nextCall) ++
            progress.observations w.nextCall }
        w.nextCall (progress.rows.map CallWrite.append) (progress.observations w.nextCall) :=
      { entries := by rw [filterMap_row_append]; exact hrows.entries
        trace := rfl
        rowless := ⟨progress.filterMap_observations _, progress.filterMap_rowOf_observations _⟩
        nextCall := ⟨Nat.le_succ _, Nat.lt_succ_self _⟩
        pending := fun other hne => Function.update_of_ne hne _ _
        unsettled := hunsettled
        settles := by
          intro other outcome hmem
          obtain ⟨rfl, rfl⟩ := CallProgress.done_of_settled hmem
          refine ⟨rfl, Function.update_self .., fun result hresult => ?_⟩
          rw [hunused, hresult, filterMap_row_append]
          rfl
        waits := by
          intro objects' call hcall
          rw [hunused, filterMap_row_append]
          have hcall : progress.pending objects = some (objects', call) :=
            (Function.update_self w.nextCall (progress.pending objects) w.pending).symm.trans hcall
          cases progress with
          | done outcome => cases hcall
          | waiting waiting =>
            cases hcall
            rfl
        invokes := fun operationId => by
          rw [filterMap_row_append]
          exact countP_invokes_le w.nextCall hoperation hrows }
    refine h.acts hacts (InOrder.append (h.inOrder.append_of_forall ?_) ?_)
    -- the rows of a call that starts verify nothing
    · intro observation hmem before
      obtain ⟨write, hwrite, rfl⟩ := List.mem_map.mp hmem
      obtain ⟨entry, hentry, rfl⟩ := List.mem_map.mp hwrite
      intro htype
      refine absurd ?_ (postconditionVerified_notMem_rowTypes progress)
      rw [← htype, ← hrows.types]
      exact List.mem_map_of_mem hentry
    -- they stand before its invocation
    · intro before observation after hsplit
      have hmem : observation ∈ progress.observations w.nextCall := by simp [hsplit]
      cases observation with
      | executeInvoked c operation =>
        obtain ⟨rfl, htypes, call, rfl, rfl⟩ := CallProgress.executionStarted_of_invoked hmem
        obtain ⟨entry, hentry, htype, hentryOf⟩ := starts_of_invoked hrows htypes
        refine ⟨entry, by simp [hentry, CallWrite.observation], htype, ?_⟩
        rw [hentryOf, ← hoperation _ rfl]
        rfl
      | appended c entry =>
        have hnone :=
          List.filterMap_eq_nil_iff.mp (progress.filterMap_observations w.nextCall) _ hmem
        cases hnone
      | recorded | appendedElsewhere | settled => trivial
  | woke c objects call shared outcome writes hpending hwrites hverified hrows hlisted =>
    -- a call in flight has the rows it lists, and has not settled
    obtain ⟨hbefore, hunsettled⟩ := h.waiting c objects call hpending
    have hc : c < w.nextCall := by
      by_contra hge
      cases hpending.symm.trans (h.unused c (Nat.le_of_not_lt hge)).1
    have hacts : Acts w
        { w with
          registries := Function.update w.registries objects.registry shared.registry
          stores := Function.update w.stores objects.store shared.operationStore
          ledger := shared.ledger
          pending := Function.update w.pending c none
          trace := w.trace ++ writes.map (·.observation c) ++ [.settled c outcome] }
        c writes [.settled c outcome] :=
      { entries := hrows.entries
        trace := rfl
        rowless := ⟨rfl, fun _ => rfl⟩
        nextCall := ⟨Nat.le_refl _, hc⟩
        pending := fun other hne => Function.update_of_ne hne _ _
        unsettled := hunsettled
        settles := by
          intro other outcome' hmem
          cases List.mem_singleton.mp hmem
          refine ⟨rfl, Function.update_self .., fun result hresult => ?_⟩
          rw [hbefore, hlisted result hresult]
        waits := by
          intro objects' call' hcall
          cases (Function.update_self c none w.pending).symm.trans hcall
        invokes := fun _ => Nat.zero_le _ }
    refine h.acts hacts ((h.inOrder.append ?_).append_of_forall (by
      simp [LedgerObservation.Prepared]))
    intro before observation after hsplit
    have hmem : observation ∈ writes.map (·.observation c) := by simp [hsplit]
    obtain ⟨write, hwrite, rfl⟩ := List.mem_map.mp hmem
    cases write with
    | record => trivial
    | append entry =>
      intro htype
      obtain ⟨record, rfl, hstate, hoperation⟩ := hverified entry hwrite htype
      refine ⟨record, List.mem_append_right _ ?_, hstate, ?_⟩
      · -- the record is the first of the two writes
        cases before with
        | nil => cases hsplit
        | cons first before =>
          obtain ⟨rfl, -⟩ := List.cons.inj hsplit
          exact List.mem_cons_self ..
      · rw [hoperation]
        exact hrows.operationId entry (List.mem_filterMap.mpr ⟨_, hwrite, rfl⟩)

/-! ## The record before the row -/

omit [Host] in
/-- A success is recorded before its row is appended. -/
theorem StepCases.recordsFirst {w w' : LedgerWorld ρ σ} (h : w.StepCases w') :
    w.RecordsFirst w' := by
  intro c entry hmem htype
  cases h with
  | silent registries => simp at hmem
  | elsewhere row => simp at hmem
  | started objects input shared progress _ hrows =>
    rw [List.append_assoc, List.drop_left, List.mem_append] at hmem
    -- the rows of a call that starts do not verify anything
    rcases hmem with hmem | hmem
    · obtain ⟨write, hwrite, heq⟩ := List.mem_map.mp hmem
      obtain ⟨row, hrow, rfl⟩ := List.mem_map.mp hwrite
      cases heq
      refine absurd ?_ (postconditionVerified_notMem_rowTypes progress)
      rw [← htype, ← hrows.types]
      exact List.mem_map_of_mem hrow
    · have hnone := List.filterMap_eq_nil_iff.mp (progress.filterMap_observations w.nextCall) _ hmem
      cases hnone
  | woke owner objects call shared outcome writes hpending hwrites hverified hrows =>
    rw [List.append_assoc, List.drop_left, List.mem_append] at hmem
    rcases hmem with hmem | hmem
    · obtain ⟨write, hwrite, heq⟩ := List.mem_map.mp hmem
      cases write with
      | record => cases heq
      | append row =>
        cases heq
        obtain ⟨record, rfl, hstate, hoperation⟩ := hverified entry hwrite htype
        have hsame : entry.operationId = some call.input.operation.operationId :=
          hrows.operationId entry (List.mem_filterMap.mpr ⟨_, hwrite, rfl⟩)
        refine ⟨objects, call, record, outcome, _, hpending, hsame, ?_, rfl, rfl, ?_, hstate, ?_⟩
        · simp [CallWrite.observation]
        · rw [← hoperation]
          exact Function.update_self ..
        · simp only [LedgerWorld.shared, Function.update_self, hwrites]
          rfl
    · cases List.mem_singleton.mp hmem

/-! ## Runs -/

/-- In every interleaving of calls on one ledger the audit is ahead of the adapter, and
    the store ahead of the audit. -/
theorem write_ahead {registries : ρ → CapabilityRegistry} {stores : σ → OperationStore}
    {ledger : AuditLedger} {events : List (LedgerEvent ρ σ)} {w : LedgerWorld ρ σ}
    (hrun : Transition.run step { registries := registries, stores := stores, ledger := ledger }
      events = some w) :
    WriteAhead { registries := registries, stores := stores, ledger := ledger } w ∧
      ∀ e w', w.step e = some w' → w.RecordsFirst w' := by
  have htraced : Traced { registries := registries, stores := stores, ledger := ledger } w :=
    Transition.run_invariant (fun _ _ _ h hstep => h.step (step_cases hstep))
      (Traced.initial registries stores ledger) hrun
  exact ⟨htraced.safe, fun e w' hstep => (step_cases hstep).recordsFirst⟩

end

end LedgerWorld

namespace Sample

section
attribute [local instance] node

/-- Two calls with stores of their own that overlap on one ledger: the second succeeds
    before the timer of the first fires. -/
def overlappingCalls : List (LedgerEvent Unit Bool) :=
  let first := makeCapability makeRequest "cap_000001" "nonce_000001"
  let second := makeCapability makeRequest "cap_000002" "nonce_000002"
  [.record () first, .record () second,
    .start ⟨(), false⟩ (makeInput first makeRequest "op_1" "key-1") (reads "evt_000001"),
    .start ⟨(), true⟩ (makeInput second makeRequest "op_2" "key-2") (reads "evt_000002"),
    .wake 1 (.executeResolved (makeReceipt "tix_000001" "key-2").toJsValue) (stamp "evt_000003"),
    .wake 0 .timerFired (stamp "evt_000004")]

theorem overlappingCalls_writeAhead :
    ∃ w, Transition.run LedgerWorld.step {} overlappingCalls = some w ∧
      w.ledger.entries.map (·.type) =
        [.executionStarted, .executionStarted, .postconditionVerified, .executionUnknown] ∧
      LedgerWorld.WriteAhead {} w := by
  have hrun : ∃ w ∈ Transition.run LedgerWorld.step {} overlappingCalls,
      w.ledger.entries.map (·.type) =
        [.executionStarted, .executionStarted, .postconditionVerified, .executionUnknown] := by
    decide +kernel
  obtain ⟨w, hw, htypes⟩ := hrun
  exact ⟨w, hw, htypes, (LedgerWorld.write_ahead hw).1⟩

end

end Sample

end ActionHarbor
