import ActionHarbor.Spec.AuditTrail

/-!
# The two indexes of the operation store

`record` files a record under its key and under its operation id. A key keeps its
records to itself, an operation id does not: a reconciliation reads the record of the
key, which names the operation it looks up, and files what it finds under the operation
id of the call that asked.

## Key results

- `AuditedStore.store_cases`: what a call run to completion does to the store
- `AuditedStore.agrees_step_iff`: when the two indexes still agree after a call
- `AuditedStore.agrees_run_iff`: when they do so after every call of a sequence
-/

namespace ActionHarbor

/-- What an operation id leads to is, in state and receipt, what `check` finds under the
    key it was recorded with. -/
def OperationStore.Agrees (store : OperationStore) : Prop :=
  ∀ operationId record, store.lookup operationId = some record →
    ∃ other, store.check record.idempotencyKey other.payloadHash = .duplicate other ∧
      other.state = record.state ∧ other.receipt = record.receipt

/-- What `check` finds for a payload. -/
theorem OperationStore.check_eq_duplicate {store : OperationStore}
    {idempotencyKey payloadHash : JsString} {record : OperationRecord} :
    store.check idempotencyKey payloadHash = .duplicate record ↔
      store.byIdempotencyKey idempotencyKey = some record ∧ record.payloadHash = payloadHash := by
  rw [check]
  cases store.byIdempotencyKey idempotencyKey with
  | none => simp
  | some existing =>
    dsimp only
    split
    -- another payload is a conflict
    · rename_i hne
      refine iff_of_false (fun h => by cases h) fun ⟨hrecord, heq⟩ => hne ?_
      rw [Option.some.inj hrecord, heq]
    · rename_i heq
      rw [not_not] at heq
      constructor
      · intro h
        obtain rfl := OperationLookup.duplicate.inj h
        exact ⟨rfl, heq⟩
      · rintro ⟨hrecord, -⟩
        rw [Option.some.inj hrecord]

/-- The same without the detour over the payload. -/
theorem OperationStore.agrees_iff {store : OperationStore} :
    store.Agrees ↔ ∀ operationId record, store.lookup operationId = some record →
      ∃ other, store.byIdempotencyKey record.idempotencyKey = some other ∧
        other.state = record.state ∧ other.receipt = record.receipt := by
  simp only [Agrees, check_eq_duplicate, and_true]

/-- After filing a record, the indexes agree exactly when no other operation id is left
    with a record of its key that tells otherwise. -/
theorem OperationStore.agrees_record_iff {store : OperationStore} {record : OperationRecord}
    (hagrees : store.Agrees) :
    (store.record record).Agrees ↔
      ∀ operationId other, operationId ≠ record.operationId →
        store.lookup operationId = some other →
        other.idempotencyKey = record.idempotencyKey →
        record.state = other.state ∧ record.receipt = other.receipt := by
  rw [agrees_iff] at hagrees ⊢
  constructor
  · intro h operationId other hne hother hkey
    obtain ⟨found, hfound, hsame⟩ :=
      h operationId other ((lookup_record_of_ne hne).trans hother)
    rw [hkey, byIdempotencyKey_record] at hfound
    exact Option.some.inj hfound ▸ hsame
  · intro h operationId other hother
    -- an operation whose key is another one is as before
    by_cases hne : operationId = record.operationId
    · subst hne
      obtain rfl := Option.some.inj ((lookup_record store record).symm.trans hother)
      exact ⟨record, byIdempotencyKey_record store record, rfl, rfl⟩
    · rw [lookup_record_of_ne hne] at hother
      by_cases hkey : other.idempotencyKey = record.idempotencyKey
      · exact ⟨record, hkey ▸ byIdempotencyKey_record store record, h _ _ hne hother hkey⟩
      · rw [byIdempotencyKey_record_of_ne hkey]
        exact hagrees operationId other hother

section
variable [Host]

/-! ## What a call does to the store -/

/-- The call looks an unknown outcome up, and the answer decides it. -/
def AuditedStore.Resolves (s : AuditedStore) (call : AuditedCall) : Prop :=
  ∃ prior, EntersLookup (s.shared call) call.input call.reads prior ∧
    (Waiting.lookingUp ⟨call.input, prior⟩).writes call.wakeup = true

/-- It does so while another operation id has its last record under the key. -/
def AuditedStore.ResolvesElsewhere (s : AuditedStore) (call : AuditedCall) : Prop :=
  s.Resolves call ∧ ∃ operationId record, operationId ≠ call.input.operation.operationId ∧
    s.operationStore.lookup operationId = some record ∧
    record.idempotencyKey = call.input.operation.idempotencyKey

/-- The record is the call's, and as records are. -/
structure FiledBy (call : AuditedCall) (record : OperationRecord) : Prop where
  operationId : record.operationId = call.input.operation.operationId
  idempotencyKey : record.idempotencyKey = call.input.operation.idempotencyKey
  wellFormed : record.WellFormed

/-- Everything a call run to completion can do to the store. -/
inductive AuditedStore.StoreCases (s : AuditedStore) (call : AuditedCall) : OperationStore → Prop
  | kept (hresolves : ¬ s.Resolves call) : StoreCases s call s.operationStore
  /-- the first record of its key -/
  | first (record : OperationRecord) (hfiled : FiledBy call record)
      (hnew : s.operationStore.byIdempotencyKey call.input.operation.idempotencyKey = none) :
      StoreCases s call (s.operationStore.record record)
  /-- an unknown outcome is decided -/
  | resolved (prior record : OperationRecord) (hfiled : FiledBy call record)
      (hprior : s.operationStore.byIdempotencyKey call.input.operation.idempotencyKey = some prior)
      (hunknown : prior.state = .unknownOutcome) (hdecided : record.state ≠ .unknownOutcome)
      (hresolves : s.Resolves call) :
      StoreCases s call (s.operationStore.record record)

/-- A call that is to resolve an outcome waits for its lookup. -/
theorem StartOutcome.of_entersLookup {shared shared' : Shared} {input : ExecuteActionInput}
    {reads : CallReads} {progress : CallProgress} {prior : OperationRecord}
    (h : StartOutcome shared input reads shared' progress)
    (hlookup : EntersLookup shared input reads prior) :
    progress = .waiting (.lookingUp ⟨input, prior⟩) := by
  obtain ⟨capability, hguards, hhash, hrecord, hunknown⟩ := hlookup
  refine (h.lookingUp_of_recorded hguards hhash hrecord ?_ ?_).2 <;> simp [hunknown]

/-- A lookup leaves a record exactly when its answer decides. -/
theorem Settlement.lookup_writes {shared shared' : Shared} {call : LookupCall} {wakeup : Wakeup}
    {settled : Settled} (h : Settlement shared (.lookingUp call) wakeup shared' settled)
    (hwrites : (Waiting.lookingUp call).writes wakeup = true) :
    ∃ record, shared'.operationStore = shared.operationStore.record record ∧
      WrittenBy (.lookingUp call) wakeup record := by
  generalize hwaiting : Waiting.lookingUp call = waiting at h hwrites
  cases h with
  | verified _ _ receipt entry hreceives hverified =>
    exact hwaiting ▸ ⟨_, rfl, hwaiting ▸ writtenBy_succeededRecord hreceives hverified⟩
  | unverified _ _ receipt entry hreceives =>
    exact hwaiting ▸ ⟨_, rfl, hwaiting ▸ writtenBy_unverifiedRecord hreceives⟩
  | inconclusive _ value status _ hstatus hunknown =>
    simp [Waiting.writes, hstatus, hunknown] at hwrites
  | lookupMalformed _ value hstatus => simp [Waiting.writes, hstatus] at hwrites
  | lookupRejected => cases hwrites
  | timedOut | rejected | crashed | refusal => cases hwaiting

/-- What a waiting call writes is filed by the call. -/
private theorem WrittenBy.filedBy {waiting : Waiting} {call : AuditedCall}
    {record : OperationRecord} (h : WrittenBy waiting call.wakeup record)
    (hinput : waiting.input = call.input) : FiledBy call record where
  operationId := hinput ▸ h.operationId_eq
  idempotencyKey := hinput ▸ h.idempotencyKey_eq
  wellFormed := h.wellFormed

/-- A call that has raced its adapter files the first record of its key, if any. -/
private theorem AuditedStore.raced_cases {s : AuditedStore} {call : AuditedCall}
    {started shared' : Shared} {waiting : Waiting} {settled : Settled}
    (hrace : EntersRace (s.shared call) call.input call.reads)
    (hinput : waiting.input = call.input) (hstore : started.operationStore = s.operationStore)
    (hend : Settlement started waiting call.wakeup shared' settled) :
    s.StoreCases call shared'.operationStore := by
  obtain ⟨_, _, _, _, _, hnew, _⟩ := hrace
  rcases hend.operationStore_cases with ⟨record, hrecorded, hwritten⟩ | ⟨hkept, -⟩
  · rw [hrecorded, hstore]
    exact .first record (hwritten.filedBy hinput) hnew
  · rw [hkept, hstore]
    refine .kept fun ⟨prior, ⟨_, _, _, hprior, _⟩, _⟩ => ?_
    cases hnew.symm.trans hprior

/-- A call that has looked an unknown outcome up files what decides it. -/
private theorem AuditedStore.looked_cases {s : AuditedStore} {call : AuditedCall}
    {started shared' : Shared} {prior : OperationRecord} {settled : Settled}
    (hlookup : EntersLookup (s.shared call) call.input call.reads prior)
    (hstore : started.operationStore = s.operationStore)
    (hend : Settlement started (.lookingUp ⟨call.input, prior⟩) call.wakeup shared' settled) :
    s.StoreCases call shared'.operationStore := by
  obtain ⟨_, -, -, hprior, hunknown⟩ := id hlookup
  -- by whether the answer is one the call writes down
  cases hwrites : (Waiting.lookingUp ⟨call.input, prior⟩).writes call.wakeup with
  | true =>
    obtain ⟨record, hrecorded, hwritten⟩ := hend.lookup_writes hwrites
    rw [hrecorded, hstore]
    exact .resolved prior record (hwritten.filedBy rfl) hprior hunknown (hwritten.decided rfl)
      ⟨prior, hlookup, hwrites⟩
  | false =>
    rcases hend.operationStore_cases with ⟨_, -, hwritten⟩ | ⟨hkept, -⟩
    · cases hwrites.symm.trans hwritten.writes
    · rw [hkept, hstore]
      refine .kept fun ⟨prior', ⟨_, _, _, hprior', _⟩, hwrites'⟩ => ?_
      obtain rfl := Option.some.inj (hprior'.symm.trans hprior)
      cases hwrites.symm.trans hwrites'

/-- A call does one of these things to the store. -/
theorem AuditedStore.store_cases {s s' : AuditedStore} {call : AuditedCall}
    (hwellFormed : ∀ key record, s.operationStore.byIdempotencyKey key = some record →
      record.WellFormed) (h : s.complete call = some s') :
    s.StoreCases call s'.operationStore := by
  have hstart := executeAction_cases (s.shared call) call.input call.reads
  rw [complete, ← shared] at h
  generalize executeAction (s.shared call) call.input call.reads = started at h hstart
  obtain ⟨started, progress⟩ := started
  have hstore : started.operationStore = s.operationStore := hstart.operationStore_eq
  cases progress with
  | done settled =>
    obtain rfl := Option.some.inj h
    dsimp only
    rw [hstore]
    -- a call that looks up does not settle at once
    refine .kept fun hlooksUp => ?_
    obtain ⟨prior, hlookup, -⟩ := hlooksUp
    cases hstart.of_entersLookup hlookup
  | waiting waiting =>
    obtain ⟨⟨shared', settled⟩, hresume, rfl⟩ := Option.map_eq_some_iff.mp h
    have hend := resume_cases hresume
    rcases hstart.waiting_cases hwellFormed with ⟨-, hrace⟩ | ⟨prior, rfl, hlookup⟩
    · exact raced_cases hrace hstart.waiting_input hstore hend
    · exact looked_cases hlookup hstore hend

/-! ## When the indexes agree -/

/-- The records of the store are as records are. -/
def AuditedStore.Sound (s : AuditedStore) : Prop :=
  ∀ key record, s.operationStore.byIdempotencyKey key = some record → record.WellFormed

/-- A call keeps them so. -/
theorem AuditedStore.Sound.step {s s' : AuditedStore} {call : AuditedCall} (h : s.Sound)
    (hcases : s.StoreCases call s'.operationStore) : s'.Sound := by
  intro key found hfound
  generalize s'.operationStore = store at hcases hfound
  cases hcases with
  | kept => exact h key found hfound
  | first record hfiled | resolved _ record hfiled =>
    by_cases hkey : key = record.idempotencyKey
    · subst hkey
      rw [OperationStore.byIdempotencyKey_record] at hfound
      exact Option.some.inj hfound ▸ hfiled.wellFormed
    · rw [OperationStore.byIdempotencyKey_record_of_ne hkey] at hfound
      exact h key found hfound

/-- After a call on a store whose indexes agree, they still do exactly when the call does
    not resolve an outcome that another operation id was recorded with. -/
theorem AuditedStore.agrees_step_iff {s s' : AuditedStore} {call : AuditedCall}
    (hagrees : s.operationStore.Agrees) (hcases : s.StoreCases call s'.operationStore) :
    s'.operationStore.Agrees ↔ ¬ s.ResolvesElsewhere call := by
  have hfound := OperationStore.agrees_iff.mp hagrees
  generalize s'.operationStore = store at hcases
  cases hcases with
  | kept hresolves => exact iff_of_true hagrees fun h => hresolves h.1
  | first record hfiled hnew =>
    -- no operation id has a record of a key that is new
    have hfresh : ∀ operationId other, s.operationStore.lookup operationId = some other →
        other.idempotencyKey ≠ call.input.operation.idempotencyKey := by
      intro operationId other hother hkey
      obtain ⟨_, hrecord, -⟩ := hfound operationId other hother
      rw [hkey, hnew] at hrecord
      cases hrecord
    refine iff_of_true ((OperationStore.agrees_record_iff hagrees).mpr ?_) ?_
    · intro operationId other _ hother hkey
      exact absurd (hkey.trans hfiled.idempotencyKey) (hfresh operationId other hother)
    · rintro ⟨-, operationId, other, -, hother, hkey⟩
      exact hfresh operationId other hother hkey
  | resolved prior record hfiled hprior hunknown hdecided hresolves =>
    rw [OperationStore.agrees_record_iff hagrees]
    constructor
    · rintro h ⟨-, operationId, other, hne, hother, hkey⟩
      obtain ⟨hstate, -⟩ :=
        h operationId other (hfiled.operationId ▸ hne) hother (hkey.trans hfiled.idempotencyKey.symm)
      -- before the call, the other operation's outcome was the unknown one of the key
      obtain ⟨found, hrecord, hsame, -⟩ := hfound operationId other hother
      rw [hkey, hprior] at hrecord
      obtain rfl := Option.some.inj hrecord
      exact hdecided (hstate.trans (hsame.symm.trans hunknown))
    · intro h operationId other hne hother hkey
      exact absurd ⟨hresolves, operationId, other, hfiled.operationId ▸ hne, hother,
        hkey.trans hfiled.idempotencyKey⟩ h

/-- In every sequence of calls from an empty store, the two indexes agree after every
    call exactly when no call resolves an outcome that another operation id was recorded
    with. -/
theorem AuditedStore.agrees_run_iff {calls : List AuditedCall} {s : AuditedStore}
    (hrun : Transition.run complete {} calls = some s) :
    (∀ before after m, calls = before ++ after → Transition.run complete {} before = some m →
      m.operationStore.Agrees) ↔
      Transition.Meets complete (fun m call => ¬ m.ResolvesElsewhere call) {} calls := by
  refine Transition.forall_prefix_iff_meets (I := AuditedStore.Sound)
    (fun call _ m m' hsound hm => ?_) (fun _ _ h => by cases h) (fun _ _ h => by cases h) hrun
  have hcases := store_cases hsound hm
  exact ⟨hsound.step hcases, fun hagrees => agrees_step_iff hagrees hcases⟩

end

namespace Sample

section
attribute [local instance] node

/-- The adapter remembers the ticket. -/
def foundTicket : LookupAnswer :=
  .resolved (.object [(js "status", .string (js "found")),
    (js "receipt", (makeReceipt "tix_000001" "key-1").toJsValue)])

/-- A call times out, and another with its key looks its operation up. -/
def resolvedUnder (operationId : String) : List AuditedCall :=
  [auditedCall "op_1" "key-1" .timerFired "evt_000001" "evt_000002",
    auditedCall operationId "key-1" (.lookupSettled foundTicket) "evt_000003" "evt_000004"]

/-- The success is filed under the second operation id alone. -/
theorem otherOperation_disagrees : ∃ s first second,
    Transition.run AuditedStore.complete {} (resolvedUnder "op_2") = some s ∧
    s.operationStore.lookup (js "op_1") = some first ∧ first.state = .unknownOutcome ∧
    s.operationStore.check first.idempotencyKey first.payloadHash = .duplicate second ∧
    second.state = .succeeded ∧ ¬ s.operationStore.Agrees := by
  have hrun : ∃ s ∈ Transition.run AuditedStore.complete {} (resolvedUnder "op_2"),
      ∃ first ∈ s.operationStore.lookup (js "op_1"), first.state = .unknownOutcome ∧
        ∃ second ∈ s.operationStore.byIdempotencyKey first.idempotencyKey,
          second.state = .succeeded ∧ second.payloadHash = first.payloadHash := by
    decide +kernel
  obtain ⟨s, hs, first, hfirst, hunknown, second, hsecond, hstate, hpayload⟩ := hrun
  refine ⟨s, first, second, hs, hfirst, hunknown,
    OperationStore.check_eq_duplicate.mpr ⟨hsecond, hpayload⟩, hstate, fun hagrees => ?_⟩
  obtain ⟨other, hother, hsame, -⟩ := OperationStore.agrees_iff.mp hagrees _ first hfirst
  obtain rfl := Option.some.inj (hsecond.symm.trans hother)
  cases hstate.symm.trans (hsame.trans hunknown)

/-- Asked again under its own operation id, the outcome is decided in both indexes. -/
theorem ownOperation_agrees : ∃ s,
    Transition.run AuditedStore.complete {} (resolvedUnder "op_1") = some s ∧
    (s.operationStore.lookup (js "op_1")).map (·.state) = some .succeeded ∧
    s.operationStore.Agrees := by
  have hrun : ∃ s ∈ Transition.run AuditedStore.complete {} (resolvedUnder "op_1"),
      (s.operationStore.lookup (js "op_1")).map (·.state) = some .succeeded := by
    decide +kernel
  obtain ⟨s, hs, hsucceeded⟩ := hrun
  refine ⟨s, hs, hsucceeded,
    (AuditedStore.agrees_run_iff hs).mpr ⟨?_, fun m hm => ⟨?_, fun _ _ => trivial⟩⟩
      (resolvedUnder "op_1") [] s (List.append_nil _).symm hs⟩
  · rintro ⟨-, _, _, -, h, -⟩
    cases h
  · -- the first call leaves no record but that of its own operation
    rintro ⟨-, operationId, other, hne, hother, -⟩
    have hcases := AuditedStore.store_cases (fun _ _ h => by cases h) hm
    generalize m.operationStore = store at hcases hother
    cases hcases with
    | kept => cases hother
    | first record hfiled | resolved _ record hfiled =>
      rw [OperationStore.lookup_record_of_ne (hfiled.operationId ▸ hne)] at hother
      cases hother

end

end Sample

end ActionHarbor
