import ActionHarbor.Spec.LaterCalls
import ActionHarbor.Spec.RunEffects

/-!
# Reconciling an unknown outcome

A reconciliation looks the operation up once and is answered with what it finds. It
resolves the run when the lookup finds the receipt, unless one of two things stands in
its way: the capability has expired, and the call is refused before the lookup; or an
earlier reconciliation was inconclusive, and the table has no edge from
`RECONCILIATION_REQUIRED`.

## Key results

- `Resolving.proceed`: a reconciliation that will find the receipt ends with it
- `Server.reconcileRun_resolves_iff`: when a reconciliation resolves its run
-/

namespace ActionHarbor

section
variable [Host]

/-! ## Steps without new requests -/

/-- A step of a run that is no new request on it. -/
inductive RunSystem.Proceeds (sys : RunSystem) : RunSystem → Prop
  | executed (c : RequestId) (operation : AdapterOperation) (capability : Capability)
      (params : JsValue) (adapter : CountingAdapter) (outcome : Except AdapterError JsValue)
      (hpromise : sys.promises c = some (.sleeping operation capability params)) :
      Proceeds sys (sys.change { sys.run with adapter := adapter } c (sys.requests c)
        (some (.executed outcome)) [])
  | woke (c : RequestId) (waiting : Waiting) (wakeup : Wakeup) (registry : CapabilityRegistry)
      (stamp : Stamp) (shared : Shared) (settled : Settled)
      (hrequest : sys.requests c = some (.waiting waiting)) (hwakes : sys.Wakes c wakeup)
      (hresume : waiting.resume wakeup ⟨registry, sys.run.operationStore, sys.run.ledger⟩ stamp =
        some (shared, settled)) :
      Proceeds sys (sys.change
        { sys.run with operationStore := shared.operationStore, ledger := shared.ledger } c
        (some (.settled settled)) (sys.promises c) [])
  | resumed (c : RequestId) (settled : Settled) (now : Instant) (run : RunRecord)
      (outcome : Except RequestError Unit)
      (hrequest : sys.requests c = some (.settled settled))
      (hfinish : finishExecution sys.run settled now = (run, outcome)) :
      Proceeds sys (sys.change run c none (sys.promises c) [.responded outcome])

/-- The end of a wait is such a step. -/
private theorem RunSystem.Proceeds.of_wake {sys : RunSystem} {c : RequestId}
    {registry : CapabilityRegistry} {wakeup : Wakeup} {stamp : Stamp} {effect : RunEffect}
    (hwakes : sys.Wakes c wakeup)
    (h : sys.run.wakeEffect registry (sys.requests c) (sys.promises c) wakeup stamp = some effect) :
    sys.Proceeds
      (sys.change effect.run c effect.stage effect.promise effect.observations) := by
  unfold RunRecord.wakeEffect at h
  split at h
  · rename_i waiting hrequest
    obtain ⟨⟨shared, settled⟩, hresume, rfl⟩ := Option.map_eq_some_iff.mp h
    exact .woke c waiting wakeup registry stamp shared settled hrequest hwakes hresume
  · cases h

/-- So is every effect that is no request. -/
theorem RunSystem.Proceeds.of_effect {sys : RunSystem} {registry : CapabilityRegistry}
    {next : RequestId} {e : ServerEvent} {effect : RunEffect} (he : e.isRequest = false)
    (heffect : sys.run.effect registry (sys.requests (e.number next)) (sys.promises (e.number next))
      e = some effect) :
    sys.Proceeds
      (sys.change effect.run (e.number next) effect.stage effect.promise effect.observations) := by
  cases e with
  | request => cases he
  -- each event the effect is defined for is one way to proceed
  | execute c draw =>
    simp only [RunRecord.effect, ServerEvent.number] at heffect
    split at heffect
    · rename_i operation capability params hpromise
      obtain rfl := Option.some.inj heffect
      exact .executed c operation capability params _ _ hpromise
    · cases heffect
  | deliver c stamp =>
    obtain ⟨promise, hpromise, heffect⟩ := Option.bind_eq_some_iff.mp heffect
    obtain ⟨wakeup, hwakeup, heffect⟩ := Option.bind_eq_some_iff.mp heffect
    exact .of_wake (.delivered promise wakeup hpromise hwakeup) heffect
  | timeout c stamp => exact .of_wake .timedOut heffect
  | refuse c stamp => exact .of_wake .refused heffect
  | resume c now =>
    simp only [RunRecord.effect, ServerEvent.number] at heffect
    split at heffect
    · rename_i settled hrequest
      obtain rfl := Option.some.inj heffect
      exact .resumed c settled now _ _ hrequest rfl
    · cases heffect

/-- A run that sees no new requests keeps what its other steps keep. -/
theorem Server.run_proceeds {model : ModelAdapter} {P : RunSystem → Prop}
    (hstep : ∀ sys sys', P sys → sys.Proceeds sys' → P sys') {s s' : Server} {ref : RunRef}
    {later : List ServerEvent} {sys : RunSystem} (hfresh : s.Fresh) (hlinked : s.Linked)
    (hsystem : s.system ref = some sys) (hsys : P sys)
    (hsees : Transition.Meets (step model) (Sees model ref (·.isRequest = false)) s later)
    (hrun : Transition.run (step model) s later = some s') :
    ∃ sys', s'.system ref = some sys' ∧ P sys' :=
  (run_sees (fun _ _ _ _ _ hsys he _ _ heffect => hstep _ _ hsys (.of_effect he heffect)) hfresh
    hlinked (Nat.zero_le _) hsystem hsys hsees hrun).2.2.2

/-! ## A reconciliation that will find the receipt -/

/-- What `lookup` answers when it finds a receipt. -/
def foundReceipt (receipt : JsValue) : JsValue :=
  .object [(js "status", .string (js "found")), (js "receipt", receipt)]

/-- How far the only request on a run has come: it looks the operation up, it has found
    the receipt, or it has been answered with it. -/
inductive Resolving (before : List RunObservation) (operationId : JsString) (c : RequestId)
    (receipt : JsValue) (sys : RunSystem) : Prop
  | lookingUp (call : LookupCall) (halone : ∀ c', c' ≠ c → sys.requests c' = none)
      (hrequest : sys.requests c = some (.waiting (.lookingUp call)))
      (hpromise : sys.promises c = some (.lookedUp (foundReceipt receipt)))
      (haccepts : verifyPostcondition call.input.request.actionType receipt
        call.input.postcondition = true)
      (hstate : sys.run.state = .unknownOutcome)
      (hhistory : sys.history = before ++ [.lookupInvoked operationId])
  | found (auditEvents : List AuditLedgerEntry) (id : JsString)
      (halone : ∀ c', c' ≠ c → sys.requests c' = none)
      (hrequest : sys.requests c = some (.settled (.returned
        (.ok receipt true id (some .reconciledSuccess) auditEvents))))
      (hstate : sys.run.state = .unknownOutcome)
      (hhistory : sys.history = before ++ [.lookupInvoked operationId])
  | answered (summary : RunExecutionSummary) (hidle : ∀ c', sys.requests c' = none)
      (hstate : sys.run.state = .verified) (hexecution : sys.run.execution = some summary)
      (hok : summary.ok = true) (hreceipt : summary.receipt = some receipt)
      (hhistory : sys.history = before ++ [.lookupInvoked operationId, .responded (.ok ())])

/-- A lookup that finds a receipt its call accepts reconciles. -/
theorem resume_found {call : LookupCall} {receipt : JsValue} {shared shared' : Shared}
    {stamp : Stamp} {settled : Settled}
    (haccepts : verifyPostcondition call.input.request.actionType receipt
      call.input.postcondition = true)
    (h : (Waiting.lookingUp call).resume (.lookupSettled (.resolved (foundReceipt receipt))) shared
      stamp = some (shared', settled)) :
    ∃ id auditEvents,
      settled = .returned (.ok receipt true id (some .reconciledSuccess) auditEvents) := by
  have hreceives : ∀ {waiting wakeup other}, Waiting.lookingUp call = waiting →
      Wakeup.lookupSettled (.resolved (foundReceipt receipt)) = wakeup →
      Receives waiting wakeup other → other = receipt := by
    rintro waiting wakeup other rfl rfl hreceives
    cases hreceives with
    | found _ value status hstatus hfound => simp [foundReceipt, JsValue.getProp]
  have hsettlement := resume_cases h
  -- only a verified settlement fits the answer and its receipt
  generalize hwaiting : Waiting.lookingUp call = waiting at hsettlement
  generalize hwakeup : Wakeup.lookupSettled (.resolved (foundReceipt receipt)) = wakeup
    at hsettlement
  cases hsettlement with
  | verified _ _ other entry hother =>
    obtain rfl := hreceives hwaiting hwakeup hother
    subst hwaiting
    exact ⟨_, _, rfl⟩
  | unverified _ _ other entry hother hunverified =>
    obtain rfl := hreceives hwaiting hwakeup hother
    subst hwaiting
    cases haccepts.symm.trans hunverified
  | inconclusive _ value status entry hstatus hunknown =>
    cases hwakeup
    simp only [foundReceipt, JsValue.getProp, propOf_cons, if_true, Option.some.injEq] at hstatus
    subst hstatus
    cases hunknown
  | lookupMalformed _ value hstatus =>
    cases hwakeup
    simp [foundReceipt, JsValue.getProp] at hstatus
  | lookupRejected => cases hwakeup
  | timedOut | rejected | crashed | refusal => cases hwaiting

/-- A reconciliation that will find the receipt goes on to. -/
theorem Resolving.proceed {before : List RunObservation} {operationId : JsString} {c : RequestId}
    {receipt : JsValue} {sys sys' : RunSystem} (h : Resolving before operationId c receipt sys)
    (hstep : sys.Proceeds sys') : Resolving before operationId c receipt sys' := by
  cases hstep with
  | executed c' operation capability params adapter outcome hpromise' =>
    -- a late `execute` is another request's
    have hsame : Function.update sys.requests c' (sys.requests c') = sys.requests :=
      Function.update_eq_self _ _
    cases h with
    | lookingUp call halone hrequest hpromise haccepts hstate hhistory =>
      have hne : c ≠ c' := by
        rintro rfl
        cases hpromise.symm.trans hpromise'
      refine .lookingUp call ?_ ?_ ?_ haccepts hstate (by simpa using hhistory)
      · rwa [RunSystem.change_requests, hsame]
      · rwa [RunSystem.change_requests, hsame]
      · rwa [RunSystem.change_promises, Function.update_of_ne hne]
    | found auditEvents id halone hrequest hstate hhistory =>
      refine .found auditEvents id ?_ ?_ hstate (by simpa using hhistory)
      · rwa [RunSystem.change_requests, hsame]
      · rwa [RunSystem.change_requests, hsame]
    | answered summary hidle hstate hexecution hok hreceipt hhistory =>
      refine .answered summary ?_ hstate hexecution hok hreceipt (by simpa using hhistory)
      rwa [RunSystem.change_requests, hsame]
  | woke c' waiting wakeup registry stamp shared settled hrequest' hwakes hresume =>
    cases h with
    | lookingUp call halone hrequest hpromise haccepts hstate hhistory =>
      obtain rfl : c' = c := by
        by_contra hne
        cases (halone c' hne).symm.trans hrequest'
      cases hrequest.symm.trans hrequest'
      -- only the lookup's own answer ends the wait for it
      have hwakeup : wakeup = .lookupSettled (.resolved (foundReceipt receipt)) := by
        cases hwakes with
        | delivered promise _ hpromise' hwakeup =>
          obtain rfl := Option.some.inj (hpromise.symm.trans hpromise')
          exact (Option.some.inj hwakeup).symm
        | timedOut | refused => cases hresume
      subst hwakeup
      obtain ⟨id, auditEvents, rfl⟩ := resume_found haccepts hresume
      refine .found auditEvents id (fun c hne => ?_) ?_ hstate (by simpa using hhistory)
      · rw [RunSystem.change_requests, Function.update_of_ne hne, halone c hne]
      · rw [RunSystem.change_requests, Function.update_self]
    | found auditEvents id halone hrequest hstate hhistory =>
      by_cases hc : c' = c
      · subst hc
        cases hrequest.symm.trans hrequest'
      · cases (halone c' hc).symm.trans hrequest'
    | answered summary hidle => cases (hidle c').symm.trans hrequest'
  | resumed c' settled now run outcome hrequest' hfinish =>
    cases h with
    | lookingUp call halone hrequest =>
      by_cases hc : c' = c
      · subst hc
        cases hrequest.symm.trans hrequest'
      · cases (halone c' hc).symm.trans hrequest'
    | found auditEvents id halone hrequest hstate hhistory =>
      obtain rfl : c' = c := by
        by_contra hne
        cases (halone c' hne).symm.trans hrequest'
      cases hrequest.symm.trans hrequest'
      have hresult : applyExecutionResult sys.run.state
          (.ok receipt true id (some .reconciledSuccess) auditEvents) = .ok .verified := by
        rw [hstate]
        rfl
      obtain ⟨rfl, rfl⟩ := Prod.mk.inj ((finishExecution_eq hresult now).symm.trans hfinish)
      refine .answered _ (fun c => ?_) rfl rfl rfl rfl ?_
      · by_cases hc : c = c'
        · subst hc
          rw [RunSystem.change_requests, Function.update_self]
        · rw [RunSystem.change_requests, Function.update_of_ne hc, halone c hc]
      · rw [RunSystem.change_history, hhistory, List.append_assoc]
        rfl
    | answered summary hidle => cases (hidle c').symm.trans hrequest'

/-! ## The server -/

namespace Server

/-- The request can go on: what it waits for can be delivered, or it can be resumed. -/
inductive GoesOn (model : ModelAdapter) (s : Server) (ref : RunRef) (c : RequestId) : Prop
  | delivered (waiting : Waiting) (hrequest : s.requests c = some (ref, .waiting waiting))
      (hdelivers : ∀ stamp, ∃ s' settled, s.step model (.deliver c stamp) = some s' ∧
        s'.requests c = some (ref, .settled settled))
  | resumed (settled : Settled) (hrequest : s.requests c = some (ref, .settled settled))
      (hresumes : ∀ now, ∃ s', s.step model (.resume c now) = some s' ∧ s'.requests c = none)

/-- A reconciliation has been answered: it looked the operation up, invoked `execute`
    not once, and left the run verified with the receipt. -/
structure Resolved (s s' : Server) (ref : RunRef) (run : RunRecord) (receipt : JsValue) :
    Prop where
  idle : ∀ c stage, s'.requests c ≠ some (ref, stage)
  history : s'.history ref =
    s.history ref ++ [.lookupInvoked run.operationId, .responded (.ok ())]
  verified : ∃ run' summary, s'.state.records ref = some run' ∧ run'.state = .verified ∧
    run'.execution = some summary ∧ summary.ok = true ∧ summary.receipt = some receipt

/-- A reconciliation of the run, whatever else the server does with no further request
    on the run: it has looked the operation up and can go on, until it has been answered. -/
def Resolves (model : ModelAdapter) (s : Server) (runId : JsString) (ref : RunRef)
    (run : RunRecord) (receipt : JsValue) (reads : CallReads) : Prop :=
  ∀ later s', Transition.Meets (step model) (Sees model ref (·.isRequest = false))
      (s.handle model (.reconcileRun runId reads)) later →
    Transition.run (step model) (s.handle model (.reconcileRun runId reads)) later = some s' →
    (s'.GoesOn model ref s.nextRequest ∧
      s'.history ref = s.history ref ++ [.lookupInvoked run.operationId]) ∨
    s.Resolved s' ref run receipt

variable {model : ModelAdapter} {s m : Server} {ref : RunRef} {run : RunRecord}

/-- A reconciliation that will find the receipt can go on until it has it. -/
private theorem goesOn_or_resolved {c : RequestId} {receipt : JsValue} {sys : RunSystem}
    (hsystem : m.system ref = some sys)
    (h : Resolving (s.history ref) run.operationId c receipt sys) :
    (m.GoesOn model ref c ∧ m.history ref = s.history ref ++ [.lookupInvoked run.operationId]) ∨
      s.Resolved m ref run receipt := by
  obtain ⟨current, hrecord, rfl⟩ := Option.map_eq_some_iff.mp hsystem
  cases h with
  | lookingUp call halone hrequest hpromise haccepts hstate hhistory =>
    have hrequest : m.requests c = some (ref, .waiting (.lookingUp call)) :=
      ofRun_eq_some.mp hrequest
    have hpromise : m.promises c = some (ref, .lookedUp (foundReceipt receipt)) :=
      ofRun_eq_some.mp hpromise
    refine .inl ⟨.delivered _ hrequest fun stamp => ?_, hhistory⟩
    -- the lookup's promise is resolved already
    simp only [step, hpromise, Option.bind_some, AdapterPromise.wakeup, wake, hrequest, hrecord,
      Waiting.resume, Option.map_some]
    exact ⟨_, _, rfl, Function.update_self ..⟩
  | found auditEvents id halone hrequest hstate hhistory =>
    have hrequest : m.requests c = some (ref, .settled _) := ofRun_eq_some.mp hrequest
    refine .inl ⟨.resumed _ hrequest fun now => ?_, hhistory⟩
    simp only [step, resume, hrequest, hrecord, Option.map_some]
    exact ⟨_, rfl, Function.update_self ..⟩
  | answered summary hidle hstate hexecution hok hreceipt hhistory =>
    refine .inr ⟨fun c stage hrequest => ?_, hhistory, current, summary, hrecord, hstate,
      hexecution, hok, hreceipt⟩
    cases (hidle c).symm.trans (ofRun_eq_some.mpr hrequest)

/-- A reconciliation makes its call. -/
private theorem reconcile_system (model : ModelAdapter) (hfresh : s.Fresh) {runId : JsString}
    (hruns : s.state.runs runId = some ref) (hrecord : s.state.records ref = some run)
    (hstate : run.state = .unknownOutcome ∨ run.state = .reconciliationRequired)
    {capability : Capability} (hcapability : run.capability = some capability)
    (reads : CallReads) :
    (s.handle model (.reconcileRun runId reads)).system ref = some
      ((s.view ref run).enter s.nextRequest
        (executeForRun s.state.registry run capability reads)) := by
  have hturn : reconcileRun s.state.registry run reads =
      .ok (executeForRun s.state.registry run capability reads) := by
    rw [reconcileRun, if_neg (by rcases hstate with h | h <;> simp [h]), hcapability]
  have hhandle : s.handle model (.reconcileRun runId reads) =
      s.enter ref (executeForRun s.state.registry run capability reads) := by
    simp only [handle, onRun, hruns, hrecord, take, hturn]
  rw [hhandle]
  exact (hfresh.changes rfl rfl rfl rfl).system_self run

/-- A reconciliation of an unknown outcome, with a live capability and a receipt to be
    found. -/
private theorem resolving_of_live {sys : RunSystem} (hkept : sys.Wellkept)
    (hunknown : sys.run.state = .unknownOutcome) (hidle : ∀ c, sys.requests c = none)
    {receipt : JsValue}
    (hfinds : sys.run.adapter.inner.lookup sys.run.operationId = foundReceipt receipt)
    {capability : Capability} (hcapability : sys.run.capability = some capability)
    {reads : CallReads} (hlive : isExpired capability.expiresAt reads.now = false)
    (registry : CapabilityRegistry) (c : RequestId) :
    Resolving sys.history sys.run.operationId c receipt
      (sys.enter c (executeForRun registry sys.run capability reads)) := by
  obtain ⟨prior, hrecorded, hprior, hid⟩ : sys.run.Unknown := by
    refine (hkept.resumable.unknown hunknown).resolve_right ?_
    rintro ⟨c', settled, hrequest, -⟩
    cases (hidle c').symm.trans hrequest
  have hadmitted := hkept.resumable.recorded prior hrecorded
  -- the call is let through to the lookup, and what that finds was checked
  obtain ⟨postcondition, hpost, hturn⟩ :=
    executeForRun_lookingUp registry hadmitted hcapability hlive hrecorded hprior
  have hown := hkept.receipted.receipts.lookup sys.run.operationId
  rw [hfinds] at hown
  have haccepts : sys.run.Accepts receipt := by
    simpa [foundReceipt, JsValue.getProp] using hown (.string (js "found")) (by
      simp [foundReceipt, JsValue.getProp]) rfl
  rw [hturn]
  refine .lookingUp ⟨sys.run.callInput capability postcondition, prior⟩ (fun c' hne => ?_)
    (Function.update_self ..) ?_ (haccepts postcondition hpost) hunknown ?_
  · exact (Function.update_of_ne hne _ _).trans (hidle c')
  · rw [← hfinds, ← hid]
    exact Function.update_self ..
  · rw [← hid]
    rfl

/-- No step but a new request leaves `RECONCILIATION_REQUIRED`. -/
private theorem reconciliationRequired_proceeds {sys sys' : RunSystem}
    (h : sys.run.state = .reconciliationRequired) (hstep : sys.Proceeds sys') :
    sys'.run.state = .reconciliationRequired := by
  cases hstep with
  | executed | woke => exact h
  | resumed c settled now run outcome hrequest hfinish =>
    cases finishExecution_cases hfinish with
    | threw | illegal => exact h
    | finished result state execution lastActionAt hresult =>
      rcases applyExecutionResult_eq_ok hresult with hsame | hedge
      · exact hsame.trans h
      · rw [h] at hedge
        cases hedge

/-- So a reconciliation from there resolves nothing. -/
private theorem not_resolves_of_reconciliationRequired {runId : JsString} {receipt : JsValue}
    {reads : CallReads} {sys : RunSystem}
    (hfresh : (s.handle model (.reconcileRun runId reads)).Fresh)
    (hlinked : (s.handle model (.reconcileRun runId reads)).Linked)
    (hsystem : (s.handle model (.reconcileRun runId reads)).system ref = some sys)
    (hstate : sys.run.state = .reconciliationRequired) :
    ¬ s.Resolves model runId ref run receipt reads := by
  intro hresolves
  have hgoes : ∀ later s',
      Transition.Meets (step model) (Sees model ref (·.isRequest = false))
        (s.handle model (.reconcileRun runId reads)) later →
      Transition.run (step model) (s.handle model (.reconcileRun runId reads)) later = some s' →
      s'.GoesOn model ref s.nextRequest := by
    intro later s' hsees hlater
    refine ((hresolves later s' hsees hlater).resolve_right fun hresolved => ?_).1
    obtain ⟨sys', hsystem', hstate'⟩ := run_proceeds
      (P := fun sys => sys.run.state = .reconciliationRequired)
      (fun _ _ => reconciliationRequired_proceeds) hfresh hlinked hsystem hstate hsees hlater
    obtain ⟨current, hcurrent, rfl⟩ := Option.map_eq_some_iff.mp hsystem'
    obtain ⟨run', summary, hrun', hverified, -⟩ := hresolved.verified
    obtain rfl := Option.some.inj (hcurrent.symm.trans hrun')
    cases hverified.symm.trans hstate'
  -- once settled, the request is resumed and is not there any more
  have hend : ∀ later s' settled,
      Transition.Meets (step model) (Sees model ref (·.isRequest = false))
        (s.handle model (.reconcileRun runId reads)) later →
      Transition.run (step model) (s.handle model (.reconcileRun runId reads)) later = some s' →
      s'.requests s.nextRequest ≠ some (ref, .settled settled) := by
    intro later s' settled hsees hlater hrequest
    cases hgoes later s' hsees hlater with
    | delivered waiting hwaiting => cases hwaiting.symm.trans hrequest
    | resumed settled' _ hresumes =>
      obtain ⟨s'', hstep, hnone⟩ := hresumes 0
      have hresume : Transition.Meets (step model) (Sees model ref (·.isRequest = false)) s'
          [.resume s.nextRequest 0] := ⟨fun _ => rfl, fun _ _ => trivial⟩
      have hsees' := hsees.append fun m hm => Option.some.inj (hlater.symm.trans hm) ▸ hresume
      have hlater' := Transition.run_concat_eq_some.mpr ⟨s', hlater, hstep⟩
      cases hgoes _ s'' hsees' hlater' with
      | delivered waiting hsome => cases hnone.symm.trans hsome
      | resumed settled hsome => cases hnone.symm.trans hsome
  cases hgoes [] _ trivial rfl with
  | resumed settled hrequest => exact hend [] _ settled trivial rfl hrequest
  | delivered waiting hrequest hdelivers =>
    obtain ⟨s', settled, hstep, hrequest'⟩ := hdelivers ⟨js "", 0⟩
    exact hend [.deliver s.nextRequest ⟨js "", 0⟩] s' settled ⟨fun _ => rfl, fun _ _ => trivial⟩
      (Transition.run_cons_eq_some.mpr ⟨s', hstep, rfl⟩) hrequest'

/-- A reconciliation that has the run to itself, and whose lookup finds the receipt, resolves
    the run exactly when the outcome is unknown and the capability has not expired. -/
theorem reconcileRun_resolves_iff {events : List ServerEvent}
    (hrun : Transition.run (step model) {} events = some s) {runId : JsString}
    (hruns : s.state.runs runId = some ref) (hrecord : s.state.records ref = some run)
    (hstate : run.state = .unknownOutcome ∨ run.state = .reconciliationRequired)
    (hidle : ∀ c stage, s.requests c ≠ some (ref, stage)) {receipt : JsValue}
    (hfinds : run.adapter.inner.lookup run.operationId = foundReceipt receipt)
    (reads : CallReads) :
    s.Resolves model runId ref run receipt reads ↔
      run.state = .unknownOutcome ∧ ∃ capability, run.capability = some capability ∧
        isExpired capability.expiresAt reads.now = false := by
  have hsystem : s.system ref = some (s.view ref run) := by rw [system, hrecord]; rfl
  have hkept := run_wellkept hrun hsystem
  have hreached : Transition.run (step model) {}
      (events ++ [.request (.reconcileRun runId reads)]) =
        some (s.handle model (.reconcileRun runId reads)) :=
    Transition.run_concat_eq_some.mpr ⟨s, hrun, rfl⟩
  obtain ⟨hfresh, -⟩ := run_ordered hrun
  obtain ⟨hfresh', hlinked'⟩ := run_ordered hreached
  constructor
  · intro hresolves
    -- the run has a record and the capability of its first call
    obtain ⟨prior, hrecorded⟩ := hkept.sound.recorded (by
      show run.state.Concluded
      rcases hstate with h | h <;> rw [h] <;> trivial)
    have hadmitted : run.Admitted prior.payloadHash := hkept.resumable.recorded prior hrecorded
    obtain ⟨capability, -, -, hcapability, -⟩ := hadmitted.guards
    have hsystem' :=
      reconcile_system model hfresh hruns hrecord hstate hcapability reads
    refine ⟨hstate.resolve_right fun hrequired => ?_, capability, hcapability, ?_⟩
    · refine not_resolves_of_reconciliationRequired hfresh' hlinked' hsystem' ?_ hresolves
      exact (executeForRun_facts s.state.registry run capability reads).same.state.trans hrequired
    · -- a call that is refused looks nothing up
      by_contra hexpired
      rw [executeForRun_expired s.state.registry hadmitted hcapability (by simpa using hexpired)]
        at hsystem'
      obtain ⟨current, -, hview⟩ := Option.map_eq_some_iff.mp hsystem'
      have hhistory : (s.handle model (.reconcileRun runId reads)).history ref = s.history ref :=
        (congrArg RunSystem.history hview).trans (List.append_nil _)
      rcases hresolves [] _ trivial rfl with ⟨-, hlooked⟩ | hresolved
      · rw [hhistory] at hlooked
        simp at hlooked
      · have hanswered := hresolved.history
        rw [hhistory] at hanswered
        simp at hanswered
  · rintro ⟨hunknown, capability, hcapability, hlive⟩ later s' hsees hlater
    have hresolving := resolving_of_live hkept hunknown (fun c => ?_) hfinds hcapability hlive
      s.state.registry s.nextRequest
    · have hsystem' :=
        reconcile_system model hfresh hruns hrecord hstate hcapability reads
      obtain ⟨sys', hsystem', hresolving'⟩ :=
        run_proceeds (fun _ _ => Resolving.proceed) hfresh' hlinked' hsystem' hresolving hsees
          hlater
      exact goesOn_or_resolved hsystem' hresolving'
    · by_contra hsome
      obtain ⟨stage, hstage⟩ := Option.ne_none_iff_exists'.mp hsome
      exact hidle c stage (ofRun_eq_some.mp hstage)

end Server

end

namespace Sample

section
attribute [local instance] node

/-- The ticket is created after all. -/
def lateTicket : ServerEvent := .execute 0 ⟨now, js "tix_000001", now, []⟩

/-- A second reconciliation finds the receipt and leaves the run as it is. -/
theorem lateTicket_unresolved :
    ∃ s ∈ Transition.run (Server.step FakeModelAdapter.propose) {}
        (unknownTicket ++ reconciliation 1 "evt_reconciled" ++ [lateTicket]),
      s.nextRequest = 2 ∧ (s.requests 0).isNone ∧ (s.requests 1).isNone ∧
      (∃ run ∈ s.state.records 0, run.state = .reconciliationRequired ∧
        ∃ receipt ∈ run.adapter.inner.byOperationId run.operationId,
        ∃ postcondition ∈ run.postcondition,
          verifyPostcondition run.actionType receipt postcondition = true) ∧
      ∃ t ∈ Transition.run (Server.step FakeModelAdapter.propose) s
          (reconciliation 2 "evt_found"),
        (t.requests 2).isNone ∧ ∃ run ∈ t.state.records 0, run.state = .reconciliationRequired ∧
          ∃ summary ∈ run.execution, summary.ok = false := by
  decide +kernel

/-- The first one would have resolved it. -/
theorem lateTicket_resolved :
    ∃ s run receipt, Transition.run (Server.step FakeModelAdapter.propose) {}
        (unknownTicket ++ [lateTicket]) = some s ∧
      s.state.records 0 = some run ∧
      s.Resolves FakeModelAdapter.propose (js "run_000001") 0 run receipt (reads "evt_looked") := by
  have hticket : ∃ s ∈ Transition.run (Server.step FakeModelAdapter.propose) {}
        (unknownTicket ++ [lateTicket]),
      (∀ c < s.nextRequest, (s.requests c).isNone) ∧ s.state.runs (js "run_000001") = some 0 ∧
      ∃ run ∈ s.state.records 0, run.state = .unknownOutcome ∧
        (run.adapter.inner.byOperationId run.operationId).isSome ∧
        ∃ capability ∈ run.capability,
          isExpired capability.expiresAt (reads "evt_looked").now = false := by
    decide +kernel
  obtain ⟨s, hs, hanswered, hruns, run, hrecord, hunknown, hsome, hlive⟩ := hticket
  obtain ⟨receipt, hreceipt⟩ := Option.isSome_iff_exists.mp hsome
  -- every request has been answered, so the run is idle
  have hidle : ∀ c stage, s.requests c ≠ some (0, stage) := by
    intro c stage hrequest
    have hnone : s.requests c = none := (Server.run_fresh hs).requests_none
      (fun c hc => Option.isNone_iff_eq_none.mp (hanswered c hc)) c
    cases hnone.symm.trans hrequest
  have hfinds : run.adapter.inner.lookup run.operationId = foundReceipt receipt := by
    rw [FakeAdapter.lookup, hreceipt]
    rfl
  exact ⟨s, run, receipt, hs, hrecord, (Server.reconcileRun_resolves_iff hs hruns hrecord
    (.inl hunknown) hidle hfinds (reads "evt_looked")).mpr ⟨hunknown, hlive⟩⟩

end

end Sample

end ActionHarbor
