import ActionHarbor.ForStd.Transition
import ActionHarbor.Model.Projection
import ActionHarbor.Spec.AtMostOnce
import ActionHarbor.Spec.AuditRows
import ActionHarbor.Spec.Provenance

/-!
# The audit trail and the stored outcome

The store and the ledger are written by statements of their own. The trail tells the
stored outcome of every operation as long as no outcome goes unaudited: neither an
adapter's rejection nor a refusal at the gateway has a row of its own, and a failed
precondition has one whatever the store holds.

## Key results

- `AuditedStore.complete_cases`: what a call run to completion does to store and ledger
- `AuditedStore.tells_step_iff`: when the trail still tells the outcome after a call
- `AuditedStore.tells_run_iff`: when it does so after every call of a sequence
-/

namespace ActionHarbor

/-! ## The fold over the rows -/

/-- The rows of a ledger carry the sequence numbers from 1 on. -/
def AuditLedger.Numbered (ledger : AuditLedger) : Prop :=
  ledger.entries.map (·.sequence) = List.range' 1 ledger.entries.length

/-- The state rows about an operation go on from. -/
def OperationFinalState.begun : OperationFinalState → OperationFinalState
  | .noEvents => .proposed
  | state => state

/-- The final state after rows of these types. -/
def finalStateAfter (types : List AuditEventType) (state : OperationFinalState) :
    OperationFinalState :=
  types.foldl (fun state type => finalStateForEventType type state) state

theorem finalStateForEventType_ne_noEvents {type : AuditEventType} {state : OperationFinalState}
    (h : state ≠ .noEvents) : finalStateForEventType type state ≠ .noEvents := by
  unfold finalStateForEventType
  split <;> first | exact h | decide

theorem finalStateAfter_ne_noEvents {types : List AuditEventType} {state : OperationFinalState}
    (h : state ≠ .noEvents) : finalStateAfter types state ≠ .noEvents := by
  induction types generalizing state with
  | nil => exact h
  | cons type types ih => exact ih (finalStateForEventType_ne_noEvents h)

/-- The rows about an operation. -/
def AuditLedger.rowsAbout (ledger : AuditLedger) (operationId : JsString) :
    List AuditLedgerEntry :=
  ledger.entries.filter fun entry => entry.operationId = some operationId

/-- Numbered rows are folded in the order they stand in. -/
theorem AuditLedger.Numbered.finalState {ledger : AuditLedger} (h : ledger.Numbered)
    (operationId : JsString) :
    (projectOperation ledger.entries operationId).finalState =
      finalStateAfter ((ledger.rowsAbout operationId).map (·.type))
        (if ledger.rowsAbout operationId = [] then .noEvents else .proposed) := by
  have hsorted : ledger.entries.Pairwise fun a b => a.sequence ≤ b.sequence := by
    rw [← List.pairwise_map (f := fun entry : AuditLedgerEntry => entry.sequence), h]
    exact (List.pairwise_lt_range').imp Nat.le_of_lt
  have hrelevant : (ledger.rowsAbout operationId).insertionSort
      (fun a b => a.sequence ≤ b.sequence) = ledger.rowsAbout operationId :=
    (hsorted.filter _).insertionSort_eq
  simp only [projectOperation]
  rw [← rowsAbout, hrelevant, finalStateAfter, List.foldl_map]
  simp only [List.length_eq_zero_iff]

/-- The final state after some more rows about the operation. -/
theorem Appends.finalState {ledger ledger' : AuditLedger} {operationId : JsString}
    {types : List AuditEventType} {rows : List AuditLedgerEntry}
    (h : Appends ledger ledger' operationId types rows) (hledger : ledger.Numbered)
    (hledger' : ledger'.Numbered) (hrows : types ≠ []) :
    (projectOperation ledger'.entries operationId).finalState =
      finalStateAfter types (projectOperation ledger.entries operationId).finalState.begun := by
  have habout : ledger'.rowsAbout operationId = ledger.rowsAbout operationId ++ rows := by
    rw [AuditLedger.rowsAbout, h.entries, List.filter_append, ← AuditLedger.rowsAbout]
    congr 1
    exact List.filter_eq_self.mpr fun row hrow => by simp [h.operationId row hrow]
  have hne : rows ≠ [] := by
    rintro rfl
    exact hrows h.types.symm
  -- the fold over the rows goes on from where it stood
  rw [hledger'.finalState, hledger.finalState, habout, if_neg (by simp [hne]), List.map_append,
    h.types, finalStateAfter, List.foldl_append]
  congr 1
  split
  · rename_i hnone
    rw [hnone]
    rfl
  · generalize hbefore : finalStateAfter _ _ = before
    have : before ≠ .noEvents := hbefore ▸ finalStateAfter_ne_noEvents (by decide)
    rw [← finalStateAfter, hbefore]
    cases before <;> first | rfl | exact absurd rfl this

/-- Rows about another operation do not change it. -/
theorem Appends.finalState_of_ne {ledger ledger' : AuditLedger} {operationId other : JsString}
    {types : List AuditEventType} {rows : List AuditLedgerEntry}
    (h : Appends ledger ledger' operationId types rows) (hledger : ledger.Numbered)
    (hledger' : ledger'.Numbered) (hne : other ≠ operationId) :
    (projectOperation ledger'.entries other).finalState =
      (projectOperation ledger.entries other).finalState := by
  have habout : ledger'.rowsAbout other = ledger.rowsAbout other := by
    rw [AuditLedger.rowsAbout, h.entries, List.filter_append, ← AuditLedger.rowsAbout]
    rw [List.filter_eq_nil_iff.mpr, List.append_nil]
    intro row hrow
    simp [h.operationId row hrow, hne.symm]
  rw [hledger'.finalState, hledger.finalState, habout]

/-- Appended rows are numbered on. -/
theorem Appends.numbered {ledger ledger' : AuditLedger} {operationId : JsString}
    {types : List AuditEventType} {rows : List AuditLedgerEntry}
    (h : Appends ledger ledger' operationId types rows) (hledger : ledger.Numbered) :
    ledger'.Numbered := by
  rw [AuditLedger.Numbered, h.entries, List.map_append, hledger, h.sequence, List.length_append,
    Nat.add_comm ledger.entries.length 1, List.range'_append_1]

/-- Two appends about one operation, one after the other. -/
theorem Appends.trans {ledger ledger' ledger'' : AuditLedger} {operationId : JsString}
    {types types' : List AuditEventType} {rows rows' : List AuditLedgerEntry}
    (h : Appends ledger ledger' operationId types rows)
    (h' : Appends ledger' ledger'' operationId types' rows') :
    Appends ledger ledger'' operationId (types ++ types') (rows ++ rows') where
  entries := by rw [h'.entries, h.entries, List.append_assoc]
  types := by rw [List.map_append, h.types, h'.types]
  operationId row hrow := by
    rcases List.mem_append.mp hrow with hrow | hrow
    · exact h.operationId row hrow
    · exact h'.operationId row hrow
  sequence := by
    rw [List.map_append, h.sequence, h'.sequence, h.entries, List.length_append,
      List.length_append, Nat.add_right_comm, List.range'_append_1]

/-! ## What the trail is to tell -/

/-- The final states a stored outcome may be shown as. -/
def OperationState.ShownAs : OperationState → OperationFinalState → Prop
  | .succeeded, shown => shown = .verified
  | .failed, shown => shown = .failed
  | .unknownOutcome, shown => shown = .unknownOutcome ∨ shown = .reconciliationRequired

/-- A row of this type shows the state, whatever came before. -/
def OperationState.ShownBy (state : OperationState) (type : AuditEventType) : Prop :=
  ∀ previous, state.ShownAs (finalStateForEventType type previous)

/-- The trail tells the stored outcome of every operation. -/
def AuditedStore.Tells (s : AuditedStore) : Prop :=
  ∀ operationId record, s.operationStore.lookup operationId = some record →
    record.state.ShownAs (projectOperation s.ledger.entries operationId).finalState

section
variable [Host]

/-- A call with a capability that validates whose preconditions fail. -/
def FailsPrecondition (input : ExecuteActionInput) (now : Instant) : Prop :=
  ∃ capability reasonCodes,
    parseAndValidateCapability input.capabilityRaw input.request now = .ok capability ∧
    checkPreconditions capability input.precondition = .error reasonCodes

/-- The objects a call is given. -/
def AuditedStore.shared (s : AuditedStore) (call : AuditedCall) : Shared :=
  ⟨call.registry, s.operationStore, s.ledger⟩

/-- No outcome of the call goes unaudited, and no row tells of another. -/
structure AuditedStore.OutcomeAudited (s : AuditedStore) (call : AuditedCall) : Prop where
  /-- preconditions fail only for an operation without a record, or a failed one -/
  precondition : FailsPrecondition call.input call.reads.now →
    ∀ record, s.operationStore.lookup call.input.operation.operationId = some record →
      record.state = .failed
  /-- a call that consumes its capability passes the gateway's own check too -/
  accepted : EntersRace (s.shared call) call.input call.reads →
    Admits (s.shared call) call.input call.reads
  /-- and its adapter does not reject with an error that is recorded -/
  delivered : EntersRace (s.shared call) call.input call.reads →
    ∀ error, call.wakeup = .executeRejected error → error.errorMessage = none

/-! ## What a call does -/

/-- A call whose preconditions fail ends with that. -/
theorem StartOutcome.of_failsPrecondition {shared shared' : Shared} {input : ExecuteActionInput}
    {reads : CallReads} {progress : CallProgress}
    (h : StartOutcome shared input reads shared' progress)
    (hfails : FailsPrecondition input reads.now) :
    progress.rowTypes = [.preconditionFailed] := by
  obtain ⟨capability, reasonCodes, hparse, hcheck⟩ := hfails
  have hguards : ∀ capability', ¬ PassesGuards input reads.now capability' := by
    rintro capability' ⟨hparse', hcheck'⟩
    obtain rfl := Except.ok.inj (hparse.symm.trans hparse')
    cases hcheck.symm.trans hcheck'
  cases h with
  | preconditionFailed => rfl
  | capabilityRefused reasonCode hguard => cases hparse.symm.trans hguard
  | unhashableParams _ _ hpasses | conflict _ _ _ _ hpasses | replayed _ _ _ hpasses
  | replayedFailure _ _ hpasses | lookingUp _ _ hpasses | registryRefused _ _ _ hpasses
  | entered _ _ _ _ hpasses => exact absurd hpasses (hguards _)

/-- A call that enters the race waits with its row. -/
theorem StartOutcome.of_entersRace {shared shared' : Shared} {input : ExecuteActionInput}
    {reads : CallReads} {progress : CallProgress}
    (h : StartOutcome shared input reads shared' progress)
    (hrace : EntersRace shared input reads) : progress.rowTypes = [.executionStarted] := by
  obtain ⟨capability, payloadHash, registry, hguards, hhash, hnew, hconsume⟩ := hrace
  obtain ⟨entry, -, rfl⟩ := h.entered_of_consume hguards hhash hnew hconsume
  rw [invokeAdapter]
  split <;> rfl

/-- Everything a call run to completion can do to the store and the ledger. -/
inductive AuditedStore.CompleteCases (s : AuditedStore) (call : AuditedCall) :
    AuditedStore → Prop
  | silent (haudited : s.OutcomeAudited call) : CompleteCases s call s
  /-- a row that tells nothing or nothing new -/
  | repeated (ledger : AuditLedger) (rows : List AuditLedgerEntry)
      (haudited : s.OutcomeAudited call)
      (happends : Appends s.ledger ledger call.input.operation.operationId
        [.duplicateReplayDetected] rows) :
      CompleteCases s call { s with ledger := ledger }
  | inconclusive (prior : OperationRecord) (ledger : AuditLedger) (rows : List AuditLedgerEntry)
      (haudited : s.OutcomeAudited call)
      (hprior : s.operationStore.byIdempotencyKey call.input.operation.idempotencyKey = some prior)
      (hstate : prior.state = .unknownOutcome)
      (happends : Appends s.ledger ledger call.input.operation.operationId
        [.reconciliationRequired] rows) :
      CompleteCases s call { s with ledger := ledger }
  | preconditionFailed (ledger : AuditLedger) (rows : List AuditLedgerEntry)
      (hfails : FailsPrecondition call.input call.reads.now)
      (hrace : ¬ EntersRace (s.shared call) call.input call.reads)
      (happends : Appends s.ledger ledger call.input.operation.operationId
        [.preconditionFailed] rows) :
      CompleteCases s call { s with ledger := ledger }
  /-- the adapter rejected with what has no message, and nothing is recorded -/
  | crashed (ledger : AuditLedger) (rows : List AuditLedgerEntry)
      (haudited : s.OutcomeAudited call)
      (hnew : s.operationStore.byIdempotencyKey call.input.operation.idempotencyKey = none)
      (happends : Appends s.ledger ledger call.input.operation.operationId
        [.executionStarted] rows) :
      CompleteCases s call { s with ledger := ledger }
  /-- an outcome is recorded behind the row that announced the execution -/
  | unaudited (waiting : Waiting) (record : OperationRecord) (ledger : AuditLedger)
      (rows : List AuditLedgerEntry) (haudited : ¬ s.OutcomeAudited call)
      (hinput : waiting.input = call.input) (hwritten : WrittenBy waiting call.wakeup record)
      (hnew : s.operationStore.byIdempotencyKey call.input.operation.idempotencyKey = none)
      (hfailed : record.state = .failed)
      (happends : Appends s.ledger ledger call.input.operation.operationId
        [.executionStarted] rows) :
      CompleteCases s call ⟨s.operationStore.record record, ledger⟩
  /-- an outcome is recorded, and the last row shows it -/
  | audited (waiting : Waiting) (record : OperationRecord) (ledger : AuditLedger)
      (types : List AuditEventType) (type : AuditEventType) (rows : List AuditLedgerEntry)
      (haudited : s.OutcomeAudited call)
      (hinput : waiting.input = call.input) (hwritten : WrittenBy waiting call.wakeup record)
      (hsettles : s.operationStore.byIdempotencyKey call.input.operation.idempotencyKey = none ∨
        record.state ≠ .unknownOutcome)
      (hshown : record.state.ShownBy type)
      (happends : Appends s.ledger ledger call.input.operation.operationId (types ++ [type]) rows) :
      CompleteCases s call ⟨s.operationStore.record record, ledger⟩

/-- A call that neither fails its preconditions nor enters the race leaves nothing
    unaudited. -/
private theorem StartOutcome.outcomeAudited {s : AuditedStore} {call : AuditedCall}
    {shared' : Shared} {progress : CallProgress}
    (h : StartOutcome (s.shared call) call.input call.reads shared' progress)
    (hnotFailed : progress.rowTypes ≠ [.preconditionFailed])
    (hnotStarted : progress.rowTypes ≠ [.executionStarted]) : s.OutcomeAudited call where
  precondition hfails := absurd (h.of_failsPrecondition hfails) hnotFailed
  accepted hrace := absurd (h.of_entersRace hrace) hnotStarted
  delivered hrace := absurd (h.of_entersRace hrace) hnotStarted

/-- A call that is done by its first `await`. -/
private theorem AuditedStore.done_cases {s : AuditedStore} {call : AuditedCall} {shared : Shared}
    {settled : Settled}
    (houtcome : StartOutcome (s.shared call) call.input call.reads shared (.done settled))
    (happends : RowsOf (s.shared call) call.input.operation.operationId (shared, .done settled)) :
    s.CompleteCases call ⟨shared.operationStore, shared.ledger⟩ := by
  have hcases := houtcome
  cases houtcome with
  | capabilityRefused | unhashableParams | replayedFailure | registryRefused =>
    exact .silent (hcases.outcomeAudited (by simp [CallProgress.rowTypes])
      (by simp [CallProgress.rowTypes]))
  | preconditionFailed capability reasonCodes entry hguard hprecondition =>
    refine .preconditionFailed _ _ ⟨capability, reasonCodes, hguard, hprecondition⟩
      (fun hrace => ?_) happends
    cases hcases.of_entersRace hrace
  | conflict | replayed =>
    exact .repeated _ _ (hcases.outcomeAudited (by simp [CallProgress.rowTypes])
      (by simp [CallProgress.rowTypes])) happends

/-- A call that reconciles the unknown outcome of its key. -/
private theorem AuditedStore.lookup_cases {s : AuditedStore} {call : AuditedCall}
    {prior : OperationRecord} {result : Shared × Settled}
    (haudited : s.OutcomeAudited call)
    (hprior : s.operationStore.byIdempotencyKey call.input.operation.idempotencyKey = some prior)
    (hstate : prior.state = .unknownOutcome)
    (hsettlement : Settlement (s.shared call) (.lookingUp ⟨call.input, prior⟩) call.wakeup
      result.1 result.2)
    (hmore : MoreRowsOf (s.shared call) call.input.operation.operationId [] result) :
    s.CompleteCases call ⟨result.1.operationStore, result.1.ledger⟩ := by
  obtain ⟨shared, settled⟩ := result
  obtain ⟨rows, happends, -⟩ := hmore
  -- the outcome is written and audited, or nothing is written
  generalize hwaiting : Waiting.lookingUp ⟨call.input, prior⟩ = waiting at hsettlement
  generalize hwakeup : call.wakeup = wakeup at hsettlement
  cases hsettlement with
  | verified _ _ receipt entry hreceives hverified =>
    subst hwaiting hwakeup
    exact .audited _ _ _ [] .postconditionVerified rows haudited rfl
      (writtenBy_succeededRecord hreceives hverified) (.inr fun h => by cases h) (fun _ => rfl)
      happends
  | unverified _ _ receipt entry hreceives =>
    subst hwaiting hwakeup
    exact .audited _ _ _ [] .postconditionFailed rows haudited rfl
      (writtenBy_unverifiedRecord hreceives) (.inr fun h => by cases h) (fun _ => rfl) happends
  | inconclusive => exact .inconclusive prior _ rows haudited hprior hstate happends
  | lookupMalformed | lookupRejected => exact .silent haudited
  | timedOut | rejected | crashed | refusal => cases hwaiting

/-- A call whose adapter has been invoked, once it has settled. -/
private theorem AuditedStore.executed_cases {s : AuditedStore} {call : AuditedCall}
    {shared : Shared} {racing : RacingCall} {result : Shared × Settled}
    {rows : List AuditLedgerEntry} {auditEvents : List AuditLedgerEntry}
    (houtcome : StartOutcome (s.shared call) call.input call.reads shared
      (.waiting (.executing racing)))
    (hrace : EntersRace (s.shared call) call.input call.reads)
    (hstarted : Appends s.ledger shared.ledger call.input.operation.operationId
      [.executionStarted] rows)
    (hsettlement : Settlement shared (.executing racing) call.wakeup result.1 result.2)
    (hmore : MoreRowsOf shared call.input.operation.operationId auditEvents result) :
    s.CompleteCases call ⟨result.1.operationStore, result.1.ledger⟩ := by
  obtain ⟨shared', settled⟩ := result
  obtain ⟨rows', hadded, -⟩ := hmore
  have happends := hstarted.trans hadded
  have hinput : racing.input = call.input := houtcome.waiting_input
  have hstore : shared.operationStore = s.operationStore := houtcome.operationStore_eq
  obtain ⟨_, _, _, -, -, hnew, -⟩ := id hrace
  -- the call was not refused, so what remains to be asked of it is what it was delivered
  have hnotFailed : ¬ FailsPrecondition call.input call.reads.now := fun hfails => by
    cases houtcome.of_failsPrecondition hfails
  have haudited : (∀ error, call.wakeup = .executeRejected error → error.errorMessage = none) →
      s.OutcomeAudited call := fun hdelivered =>
    { precondition := fun hfails => absurd hfails hnotFailed
      accepted := fun _ => ⟨_, houtcome.admittedWith⟩
      delivered := fun _ => hdelivered }
  have hdelivered : ∀ {receipt}, Receives (.executing racing) call.wakeup receipt →
      ∀ error, call.wakeup = .executeRejected error → error.errorMessage = none := by
    intro receipt hreceives error heq
    rw [heq] at hreceives
    cases hreceives
  generalize hwaiting : Waiting.executing racing = waiting at hsettlement
  generalize hwakeup : call.wakeup = wakeup at hsettlement
  cases hsettlement with
  | verified _ _ receipt entry hreceives hverified =>
    subst hwaiting hwakeup
    dsimp only
    rw [hstore]
    exact .audited (.executing racing) _ _ _ .postconditionVerified _ (haudited (hdelivered hreceives)) hinput
      (writtenBy_succeededRecord hreceives hverified) (.inl hnew) (fun _ => rfl) happends
  | unverified _ _ receipt entry hreceives =>
    subst hwaiting hwakeup
    dsimp only
    rw [hstore]
    exact .audited (.executing racing) _ _ _ .postconditionFailed _ (haudited (hdelivered hreceives)) hinput
      (writtenBy_unverifiedRecord hreceives) (.inl hnew) (fun _ => rfl) happends
  | timedOut racing' entry =>
    obtain rfl := Waiting.executing.inj hwaiting
    dsimp only
    rw [hstore]
    refine .audited (.executing racing) _ _ _ .executionUnknown _ (haudited fun _ heq => ?_) hinput
      ?_ (.inl hnew) (fun _ => .inl rfl) happends
    · cases hwakeup.symm.trans heq
    · rw [hwakeup]
      exact writtenBy_outcomeRecord (.inl rfl) rfl (by decide) (by decide)
  | rejected racing' error errorMessage hmessage =>
    -- the outcome is written and no row tells of it: this is what `OutcomeAudited` excludes
    obtain rfl := Waiting.executing.inj hwaiting
    dsimp only
    rw [hstore]
    refine .unaudited (.executing racing) _ _ _ (fun haudited => ?_) hinput ?_ hnew rfl happends
    · cases hmessage.symm.trans (haudited.delivered hrace error hwakeup)
    · rw [hwakeup]
      exact writtenBy_outcomeRecord (.inl rfl) (by simp [Waiting.writes, hmessage]) (by decide)
        (fun _ => rfl)
  | crashed racing' error hmessage =>
    -- an error without a text: nothing is written at all
    dsimp only
    rw [hstore]
    refine .crashed _ _ (haudited fun error' heq => ?_) hnew happends
    obtain rfl := Wakeup.executeRejected.inj (hwakeup.symm.trans heq)
    exact hmessage
  | refusal | inconclusive | lookupMalformed | lookupRejected => cases hwaiting

/-- A call that the gateway's own check has refused, once it has settled. -/
private theorem AuditedStore.refused_cases {s : AuditedStore} {call : AuditedCall}
    {shared : Shared} {racing : RacingCall} {reasonCode : CapabilityRejectionReason}
    {result : Shared × Settled} {rows : List AuditLedgerEntry}
    {auditEvents : List AuditLedgerEntry}
    (houtcome : StartOutcome (s.shared call) call.input call.reads shared
      (.waiting (.refused racing reasonCode)))
    (hrace : EntersRace (s.shared call) call.input call.reads)
    (hstarted : Appends s.ledger shared.ledger call.input.operation.operationId
      [.executionStarted] rows)
    (hsettlement : Settlement shared (.refused racing reasonCode) call.wakeup result.1 result.2)
    (hmore : MoreRowsOf shared call.input.operation.operationId auditEvents result) :
    s.CompleteCases call ⟨result.1.operationStore, result.1.ledger⟩ := by
  obtain ⟨shared', settled⟩ := result
  obtain ⟨rows', hadded, -⟩ := hmore
  have happends := hstarted.trans hadded
  have hinput : racing.input = call.input := houtcome.waiting_input
  have hstore : shared.operationStore = s.operationStore := houtcome.operationStore_eq
  obtain ⟨_, _, _, -, -, hnew, -⟩ := id hrace
  generalize hwaiting : Waiting.refused racing reasonCode = waiting at hsettlement
  generalize hwakeup : call.wakeup = wakeup at hsettlement
  cases hsettlement with
  | refusal racing' reasonCode' =>
    obtain ⟨rfl, rfl⟩ := Waiting.refused.inj hwaiting
    -- the gateway's own refusal is recorded as failed without a row
    dsimp only
    rw [hstore]
    refine .unaudited (.refused racing reasonCode) _ _ _ (fun haudited => ?_) hinput ?_ hnew rfl
      happends
    · obtain ⟨capability, hadmitted⟩ := haudited.accepted hrace
      obtain ⟨_, hexecuting, -⟩ := houtcome.executing_of_admittedWith hadmitted
      cases hexecuting
    · rw [hwakeup]
      exact writtenBy_outcomeRecord (.inr ⟨reasonCode, rfl⟩) rfl (by decide) (fun _ => rfl)
  | verified _ _ _ _ hreceives | unverified _ _ _ _ hreceives =>
    subst hwaiting
    cases hreceives
  | timedOut | rejected | crashed | inconclusive | lookupMalformed | lookupRejected =>
    cases hwaiting

/-- A call run to completion does one of these things. -/
theorem AuditedStore.complete_cases {s s' : AuditedStore} {call : AuditedCall}
    (hwellFormed : ∀ key record, s.operationStore.byIdempotencyKey key = some record →
      record.WellFormed)
    (h : s.complete call = some s') : s.CompleteCases call s' := by
  rw [complete] at h
  have houtcome := executeAction_cases (s.shared call) call.input call.reads
  have happends := executeAction_appends (s.shared call) call.input call.reads
  rw [shared] at houtcome happends
  generalize executeAction _ call.input call.reads = result at h houtcome happends
  obtain ⟨shared, progress⟩ := result
  cases progress with
  | done settled =>
    obtain rfl := Option.some.inj h
    exact done_cases houtcome happends
  | waiting waiting =>
    obtain ⟨result, hresult, rfl⟩ := Option.map_eq_some_iff.mp h
    have hsettlement := resume_cases hresult
    have hmore := resume_appends hresult
    rw [houtcome.waiting_input] at hmore
    -- by what the call waits for
    rcases houtcome.waiting_cases hwellFormed with ⟨hraces, hrace⟩ | ⟨prior, rfl, hlookup⟩
    · cases waiting with
      | executing racing => exact executed_cases houtcome hrace happends hsettlement hmore
      | refused racing reasonCode => exact refused_cases houtcome hrace happends hsettlement hmore
      | lookingUp _ => cases hraces
    · have hcases := houtcome
      obtain ⟨_, -, -, hprior, hstate⟩ := hlookup
      generalize hwaiting : Waiting.lookingUp ⟨call.input, prior⟩ = waiting at houtcome
      cases houtcome with
      | lookingUp =>
        exact lookup_cases (hcases.outcomeAudited (by simp [CallProgress.rowTypes])
          (by simp [CallProgress.rowTypes])) hprior hstate hsettlement hmore
      | entered =>
        rw [invokeAdapter] at hwaiting
        split at hwaiting <;> cases hwaiting

/-! ## One key for each operation id -/

/-- How the two maps of the store hang together when every operation id comes with one
    key, over a ledger in order. -/
structure AuditedStore.Kept (keyOf : JsString → JsString) (s : AuditedStore) : Prop where
  numbered : s.ledger.Numbered
  recorded : ∀ operationId, s.operationStore.byIdempotencyKey (keyOf operationId) = none →
    s.operationStore.lookup operationId = none
  wellFormed : ∀ key record, s.operationStore.byIdempotencyKey key = some record →
    record.WellFormed
  /-- while the outcome of a key is unknown, so is that of all its operations -/
  undecided : ∀ operationId prior record,
    s.operationStore.byIdempotencyKey (keyOf operationId) = some prior →
    prior.state = .unknownOutcome → s.operationStore.lookup operationId = some record →
    record.state = .unknownOutcome

omit [Host] in
theorem AuditedStore.kept_empty (keyOf : JsString → JsString) :
    ({} : AuditedStore).Kept keyOf where
  numbered := rfl
  recorded _ _ := rfl
  wellFormed _ _ h := by cases h
  undecided _ _ _ h := by cases h

omit [Host] in
/-- More rows leave the store as it was. -/
private theorem AuditedStore.Kept.appended {keyOf : JsString → JsString} {s : AuditedStore}
    {ledger : AuditLedger} {operationId : JsString} {types : List AuditEventType}
    {rows : List AuditLedgerEntry} (h : s.Kept keyOf)
    (happends : Appends s.ledger ledger operationId types rows) :
    ({ s with ledger := ledger } : AuditedStore).Kept keyOf where
  numbered := happends.numbered h.numbered
  recorded := h.recorded
  wellFormed := h.wellFormed
  undecided := h.undecided

omit [Host] in
/-- A record that is the first of its key, or a decided one, keeps the maps together. -/
private theorem AuditedStore.Kept.record {keyOf : JsString → JsString} {s : AuditedStore}
    {record : OperationRecord} (h : s.Kept keyOf)
    (hkey : record.idempotencyKey = keyOf record.operationId) (hwellFormed : record.WellFormed)
    (hsettles : s.operationStore.byIdempotencyKey record.idempotencyKey = none ∨
      record.state ≠ .unknownOutcome) :
    ({ s with operationStore := s.operationStore.record record } : AuditedStore).Kept keyOf := by
  have hother : ∀ operationId, keyOf operationId ≠ record.idempotencyKey →
      (s.operationStore.record record).byIdempotencyKey (keyOf operationId) =
          s.operationStore.byIdempotencyKey (keyOf operationId) ∧
        (s.operationStore.record record).lookup operationId =
          s.operationStore.lookup operationId := by
    intro operationId hne
    refine ⟨Function.update_of_ne hne _ _, OperationStore.lookup_record_of_ne ?_⟩
    rintro rfl
    exact hne hkey.symm
  refine ⟨h.numbered, fun operationId hnone => ?_, fun key other hother => ?_,
    fun operationId prior other hprior hstate hlookup => ?_⟩
  · by_cases heq : keyOf operationId = record.idempotencyKey
    · rw [heq] at hnone
      cases (Function.update_self record.idempotencyKey _ _).symm.trans hnone
    · obtain ⟨hsame, hsame'⟩ := hother operationId heq
      rw [hsame']
      exact h.recorded operationId (hsame.symm.trans hnone)
  · by_cases heq : key = record.idempotencyKey
    · subst heq
      obtain rfl :=
        Option.some.inj ((Function.update_self record.idempotencyKey _ _).symm.trans hother)
      exact hwellFormed
    · exact h.wellFormed key other ((Function.update_of_ne heq _ _).symm.trans hother)
  · by_cases heq : keyOf operationId = record.idempotencyKey
    · rw [heq] at hprior
      obtain rfl :=
        Option.some.inj ((Function.update_self record.idempotencyKey _ _).symm.trans hprior)
      -- an unknown outcome is the first record of its key
      have hnone := hsettles.resolve_right (not_not.mpr hstate)
      by_cases hoperation : operationId = record.operationId
      · subst hoperation
        obtain rfl := Option.some.inj ((OperationStore.lookup_record _ _).symm.trans hlookup)
        exact hstate
      · have hold := (OperationStore.lookup_record_of_ne hoperation).symm.trans hlookup
        cases (h.recorded operationId (heq ▸ hnone)).symm.trans hold
    · obtain ⟨hsame, hsame'⟩ := hother operationId heq
      exact h.undecided operationId prior other (hsame.symm.trans hprior) hstate
        (hsame'.symm.trans hlookup)

/-- The record of a call is about its operation. -/
private theorem WrittenBy.operation_eq {waiting : Waiting} {wakeup : Wakeup}
    {record : OperationRecord} {input : ExecuteActionInput} (h : WrittenBy waiting wakeup record)
    (hinput : waiting.input = input) :
    record.operationId = input.operation.operationId ∧
      record.idempotencyKey = input.operation.idempotencyKey := by
  rw [h.operationId_eq, h.idempotencyKey_eq, Waiting.idempotencyKey, hinput]
  exact ⟨rfl, rfl⟩

/-- A call keeps the maps together. -/
theorem AuditedStore.Kept.step {keyOf : JsString → JsString} {s s' : AuditedStore}
    {call : AuditedCall} (h : s.Kept keyOf)
    (hkey : call.input.operation.idempotencyKey = keyOf call.input.operation.operationId)
    (hcases : s.CompleteCases call s') : s'.Kept keyOf := by
  cases hcases with
  | silent => exact h
  | repeated _ _ _ happends | inconclusive _ _ _ _ _ _ happends
  | preconditionFailed _ _ _ _ happends | crashed _ _ _ _ happends => exact h.appended happends
  | unaudited waiting record ledger rows _ hinput hwritten hnew hfailed happends =>
    obtain ⟨hoperation, hrecordKey⟩ := hwritten.operation_eq hinput
    refine (h.appended happends).record ?_ hwritten.wellFormed (.inl (hrecordKey ▸ hnew))
    rw [hrecordKey, hoperation, hkey]
  | audited waiting record ledger types type rows _ hinput hwritten hsettles _ happends =>
    obtain ⟨hoperation, hrecordKey⟩ := hwritten.operation_eq hinput
    refine (h.appended happends).record ?_ hwritten.wellFormed (hrecordKey ▸ hsettles)
    rw [hrecordKey, hoperation, hkey]

/-! ## When the trail tells the outcome -/

omit [Host] in
/-- What shows a stored outcome is no empty trail. -/
theorem OperationState.ShownAs.begun {state : OperationState} {shown : OperationFinalState}
    (h : state.ShownAs shown) : state.ShownAs shown.begun := by
  cases shown <;> first | exact h | (cases state <;> simp [OperationState.ShownAs] at h)

omit [Host] in
/-- Only a failure is shown as one. -/
theorem OperationState.shownAs_failed {state : OperationState} :
    state.ShownAs .failed ↔ state = .failed := by
  cases state <;> simp [OperationState.ShownAs]

omit [Host] in
/-- After rows about one operation it remains to look at that one. -/
private theorem AuditedStore.tells_iff_of_appends {s : AuditedStore} {store : OperationStore}
    {ledger : AuditLedger} {operationId : JsString} {types : List AuditEventType}
    {rows : List AuditLedgerEntry} (hnumbered : s.ledger.Numbered) (htells : s.Tells)
    (happends : Appends s.ledger ledger operationId types rows) (htypes : types ≠ [])
    (hlookup : ∀ other, other ≠ operationId →
      store.lookup other = s.operationStore.lookup other) :
    (⟨store, ledger⟩ : AuditedStore).Tells ↔
      ∀ record, store.lookup operationId = some record →
        record.state.ShownAs (finalStateAfter types
          (projectOperation s.ledger.entries operationId).finalState.begun) := by
  have hfinal := happends.finalState hnumbered (happends.numbered hnumbered) htypes
  constructor
  · intro h record hrecord
    exact hfinal ▸ h operationId record hrecord
  · intro h other record hrecord
    -- rows about one operation tell nothing of the others
    by_cases heq : other = operationId
    · subst heq
      rw [hfinal]
      exact h record hrecord
    · rw [happends.finalState_of_ne hnumbered (happends.numbered hnumbered) heq]
      exact htells other record (hlookup other heq ▸ hrecord)

/-- After a call the trail still tells the outcomes exactly when the call leaves none
    unaudited. -/
theorem AuditedStore.tells_step_iff {keyOf : JsString → JsString} {s s' : AuditedStore}
    {call : AuditedCall} (hkept : s.Kept keyOf) (htells : s.Tells)
    (hkey : call.input.operation.idempotencyKey = keyOf call.input.operation.operationId)
    (hcases : s.CompleteCases call s') : s'.Tells ↔ s.OutcomeAudited call := by
  cases hcases with
  | silent haudited => exact ⟨fun _ => haudited, fun _ => htells⟩
  | repeated ledger rows haudited happends =>
    refine ⟨fun _ => haudited, fun _ => ?_⟩
    refine (tells_iff_of_appends hkept.numbered htells happends (by simp) fun _ _ => rfl).mpr ?_
    exact fun record hrecord => (htells _ record hrecord).begun
  | inconclusive prior ledger rows haudited hprior hstate happends =>
    refine ⟨fun _ => haudited, fun _ => ?_⟩
    refine (tells_iff_of_appends hkept.numbered htells happends (by simp) fun _ _ => rfl).mpr ?_
    intro record hrecord
    rw [hkept.undecided _ prior record (hkey ▸ hprior) hstate hrecord]
    exact .inr rfl
  | preconditionFailed ledger rows hfails hrace happends =>
    refine (tells_iff_of_appends hkept.numbered htells happends (by simp) fun _ _ => rfl).trans ?_
    constructor
    · intro h
      exact {
        precondition := fun _ record hrecord => OperationState.shownAs_failed.mp (h record hrecord)
        accepted := fun h => absurd h hrace
        delivered := fun h => absurd h hrace }
    · intro haudited record hrecord
      exact OperationState.shownAs_failed.mpr (haudited.precondition hfails record hrecord)
  | crashed ledger rows haudited hnew happends =>
    refine ⟨fun _ => haudited, fun _ => ?_⟩
    refine (tells_iff_of_appends hkept.numbered htells happends (by simp) fun _ _ => rfl).mpr ?_
    -- nothing is recorded under the key, so nothing is to be shown
    intro record hrecord
    cases (hkept.recorded _ (hkey ▸ hnew)).symm.trans hrecord
  | unaudited waiting record ledger rows haudited hinput hwritten hnew hfailed happends =>
    -- the store says FAILED, which the rows of this operation do not show
    obtain ⟨hoperation, -⟩ := hwritten.operation_eq hinput
    refine ⟨fun h => ?_, fun h => absurd h haudited⟩
    have hiff := tells_iff_of_appends hkept.numbered htells happends (by simp) fun other hne =>
      OperationStore.lookup_record_of_ne (hoperation ▸ hne)
    have hshown := hiff.mp h record (hoperation ▸ OperationStore.lookup_record _ _)
    rw [hfailed] at hshown
    cases hshown
  | audited waiting record ledger types type rows haudited hinput hwritten hsettles hshown happends =>
    obtain ⟨hoperation, -⟩ := hwritten.operation_eq hinput
    have hiff := tells_iff_of_appends hkept.numbered htells happends (by simp) fun other hne =>
      OperationStore.lookup_record_of_ne (hoperation ▸ hne)
    refine ⟨fun _ => haudited, fun _ => hiff.mpr fun found hfound => ?_⟩
    have hself : (s.operationStore.record record).lookup call.input.operation.operationId =
        some record := hoperation ▸ OperationStore.lookup_record _ _
    obtain rfl := Option.some.inj (hself.symm.trans hfound)
    rw [finalStateAfter, List.foldl_append]
    exact hshown _

/-- In every sequence of calls that uses each operation id with one key, the trail tells
    the stored outcomes after every call exactly when no call leaves an outcome
    unaudited. -/
theorem AuditedStore.tells_run_iff {keyOf : JsString → JsString} {calls : List AuditedCall}
    {s : AuditedStore}
    (hkeys : ∀ call ∈ calls,
      call.input.operation.idempotencyKey = keyOf call.input.operation.operationId)
    (hrun : Transition.run complete {} calls = some s) :
    (∀ before after m, calls = before ++ after → Transition.run complete {} before = some m →
      m.Tells) ↔
      Transition.Meets complete OutcomeAudited {} calls := by
  refine Transition.forall_prefix_iff_meets (I := fun m => m.Kept keyOf)
    (fun call hcall m m' hkept hm => ?_) (kept_empty keyOf) (fun _ _ h => by cases h) hrun
  have hcases := complete_cases hkept.wellFormed hm
  exact ⟨hkept.step (hkeys call hcall) hcases,
    fun htells => tells_step_iff hkept htells (hkeys call hcall) hcases⟩

end

namespace Sample

section
attribute [local instance] node

/-- A call with a capability of its own. -/
def auditedCall (operationId key : String) (wakeup : Wakeup) (before after : String) :
    AuditedCall :=
  let capability := makeCapability makeRequest "cap_000001" "nonce_000001"
  { registry := ({} : CapabilityRegistry).record capability
    input := makeInput capability makeRequest operationId key
    reads := reads before
    wakeup := wakeup
    stamp := stamp after }

/-- The adapter rejects with an error. -/
def rejectedCall : AuditedCall :=
  auditedCall "op_1" "key-1" (.executeRejected (.error (js "ticket backend is down")))
    "evt_000001" "evt_000002"

/-- A recorded failure the trail still shows as executing. -/
theorem rejectedCall_not_told : ∃ s record,
    Transition.run AuditedStore.complete {} [rejectedCall] = some s ∧
    s.operationStore.lookup (js "op_1") = some record ∧ record.state = .failed ∧
    (projectOperation s.ledger.entries (js "op_1")).finalState = .executing ∧ ¬ s.Tells := by
  have hrun : ∃ s ∈ Transition.run AuditedStore.complete {} [rejectedCall],
      ∃ record ∈ s.operationStore.lookup (js "op_1"), record.state = .failed ∧
        (projectOperation s.ledger.entries (js "op_1")).finalState = .executing := by
    decide +kernel
  obtain ⟨s, hs, record, hrecord, hstate, hfinal⟩ := hrun
  refine ⟨s, record, hs, hrecord, hstate, hfinal, fun htells => ?_⟩
  have hshown := htells _ record hrecord
  rw [hstate, hfinal] at hshown
  cases hshown

/-- The adapter delivers, and the next call replays its receipt. -/
def deliveredCalls : List AuditedCall :=
  [auditedCall "op_1" "key-1" (.executeResolved (makeReceipt "tix_000001" "key-1").toJsValue)
      "evt_000001" "evt_000002",
    auditedCall "op_1" "key-1" .timerFired "evt_000003" "evt_000004"]

/-- The adapter call a call races with its timer. -/
def racing : CallProgress → Option RacingCall
  | .waiting (.executing call) => some call
  | _ => none

theorem exists_of_racing {progress : CallProgress} (h : (racing progress).isSome) :
    ∃ call, progress = .waiting (.executing call) := by
  cases progress with
  | done => cases h
  | waiting waiting =>
    cases waiting with
    | executing call => exact ⟨call, rfl⟩
    | refused | lookingUp => cases h

/-- The first call leaves no outcome unaudited, nor does a replay of it. -/
private theorem deliveredCalls_audited :
    Transition.Meets AuditedStore.complete AuditedStore.OutcomeAudited {} deliveredCalls := by
  have hracing : (racing (executeAction (({} : AuditedStore).shared deliveredCalls[0])
      deliveredCalls[0].input deliveredCalls[0].reads).2).isSome := by decide +kernel
  have hreplayed : ∀ s ∈ AuditedStore.complete {} deliveredCalls[0],
      (executeAction (s.shared deliveredCalls[1]) deliveredCalls[1].input
        deliveredCalls[1].reads).2.rowTypes = [.duplicateReplayDetected] := by decide +kernel
  obtain ⟨call, hcall⟩ := exists_of_racing hracing
  refine ⟨⟨fun _ record h => ?_, fun _ => ?_, fun _ error h => ?_⟩, fun s hs => ⟨?_, fun _ _ => ?_⟩⟩
  · cases h
  · exact ⟨call.capability, (executing_iff _ _ _ _).mp ⟨call, hcall, rfl⟩⟩
  · cases h
  · refine (executeAction_cases (s.shared deliveredCalls[1]) _ _).outcomeAudited ?_ ?_
    · rw [hreplayed s hs]
      decide
    · rw [hreplayed s hs]
      decide
  · trivial

/-- A success, and its replay, are told. -/
theorem deliveredCalls_told : ∃ s,
    Transition.run AuditedStore.complete {} deliveredCalls = some s ∧ s.Tells := by
  have hrun : (Transition.run AuditedStore.complete {} deliveredCalls).isSome := by decide +kernel
  obtain ⟨s, hs⟩ := Option.isSome_iff_exists.mp hrun
  have hkeys : ∀ call ∈ deliveredCalls, call.input.operation.idempotencyKey =
      Function.const JsString (js "key-1") call.input.operation.operationId := by decide
  have hiff := AuditedStore.tells_run_iff hkeys hs
  exact ⟨s, hs, hiff.mpr deliveredCalls_audited deliveredCalls [] s (List.append_nil _).symm hs⟩

end

end Sample

end ActionHarbor
