import ActionHarbor.Spec.RunSystem

/-!
# Steps as effects on one run

A step of the server that belongs to a run is decided by that run, what it has in
flight under one number, and the registry. `RunRecord.effect` is that decision and
`Server.apply` carries it out.

## Key results

- `Server.step_eq_apply`: a step that belongs to a run applies its effect
- `Server.StepCases.system_eq`: no other run changes
- `Server.run_sees`: a run keeps what the steps it sees keep
-/

namespace ActionHarbor

/-! ## Which run a step belongs to -/

/-- The run a request names; a creation names none. -/
def Request.runId : Request → Option JsString
  | .createRun _ _ => none
  | .approveRun runId _ | .simulateDrift runId _ | .replayRun runId _ | .reconcileRun runId _
  | .verifyRunLedger runId _ => some runId

/-- The number of the request a step is about; a new request takes the next one. -/
def ServerEvent.number (next : RequestId) : ServerEvent → RequestId
  | .request _ => next
  | .execute c _ | .deliver c _ | .timeout c _ | .refuse c _ | .resume c _ => c

/-- A request arrives. -/
def ServerEvent.isRequest : ServerEvent → Bool
  | .request _ => true
  | _ => false

/-- What a step leaves of its run, of the request it is about, and in the registry. -/
structure RunEffect where
  registry : CapabilityRegistry
  run : RunRecord
  stage : Option RequestStage
  promise : Option AdapterPromise
  observations : List RunObservation

namespace RunEffect

/-- A request that changed nothing is answered. -/
def refused (registry : CapabilityRegistry) (run : RunRecord) (error : RequestError) :
    RunEffect where
  registry := registry
  run := run
  stage := none
  promise := none
  observations := [.responded (.error error)]

/-- A request takes its turn. -/
def ofTurn (turn : Turn) : RunEffect where
  registry := turn.registry
  run := turn.run
  stage := turn.stage
  promise := turn.promise
  observations := turn.observations

/-- A request takes its turn or is refused. -/
def take (registry : CapabilityRegistry) (run : RunRecord) : Except RequestError Turn → RunEffect
  | .error error => refused registry run error
  | .ok turn => ofTurn turn

end RunEffect

namespace RunRecord
variable [Host]

/-- The effect of a request on a run. -/
def requestEffect (registry : CapabilityRegistry) (run : RunRecord) :
    Request → Option RunEffect
  | .createRun _ _ => none
  | .approveRun _ draw => some (.take registry run (approveRun registry run draw))
  | .simulateDrift _ now =>
    some (match simulateDrift run now with
      | .error error => .refused registry run error
      | .ok drifted => ⟨registry, drifted, none, none, [.driftSimulated, .responded (.ok ())]⟩)
  | .replayRun _ reads => some (.take registry run (replayRun registry run reads))
  | .reconcileRun _ reads => some (.take registry run (reconcileRun registry run reads))
  | .verifyRunLedger _ stamp =>
    some (match verifyRunLedger run stamp with
      | .error error => .refused registry run error
      | .ok (checked, _) => ⟨registry, checked, none, none, [.responded (.ok ())]⟩)

/-- The effect of the end of a wait. -/
def wakeEffect (registry : CapabilityRegistry) (run : RunRecord) (stage : Option RequestStage)
    (promise : Option AdapterPromise) (wakeup : Wakeup) (stamp : Stamp) : Option RunEffect :=
  match stage with
  | some (.waiting waiting) =>
    (waiting.resume wakeup ⟨registry, run.operationStore, run.ledger⟩ stamp).map
      fun (shared, settled) =>
        { registry := shared.registry
          run := { run with operationStore := shared.operationStore, ledger := shared.ledger }
          stage := some (.settled settled)
          promise := promise
          observations := [] }
  | _ => none

/-- The effect of a step on the run it belongs to, given what the run has in flight under
    the number of the step. -/
def effect (registry : CapabilityRegistry) (run : RunRecord) (stage : Option RequestStage)
    (promise : Option AdapterPromise) : ServerEvent → Option RunEffect
  | .request request => run.requestEffect registry request
  | .execute _ draw =>
    match promise with
    | some (.sleeping operation capability params) =>
      let (adapter, outcome) :=
        run.adapter.execute (adapterKind run.scenario) operation capability params draw
      some
        { registry := registry
          run := { run with adapter := adapter }
          stage := stage
          promise := some (.executed outcome)
          observations := [] }
    | _ => none
  | .deliver _ stamp =>
    promise.bind fun own => own.wakeup.bind fun wakeup =>
      run.wakeEffect registry stage promise wakeup stamp
  | .timeout _ stamp => run.wakeEffect registry stage promise .timerFired stamp
  | .refuse _ stamp => run.wakeEffect registry stage promise .refusalDelivered stamp
  | .resume _ now =>
    match stage with
    | some (.settled settled) =>
      let (finished, outcome) := finishExecution run settled now
      some
        { registry := registry
          run := finished
          stage := none
          promise := promise
          observations := [.responded outcome] }
    | _ => none

end RunRecord

namespace Server

section
variable [Host]

/-- The run a step belongs to: the one it creates, the one its request names, or the one
    of the request in flight. -/
def actor (model : ModelAdapter) (s : Server) : ServerEvent → Option RunRef
  | .request (.createRun scenarioId draw) =>
    match createRun model s.state.registry scenarioId draw with
    | .error _ => none
    | .ok _ => some s.state.nextRef
  | .request request => request.runId.bind s.state.runs
  | .execute c _ => (s.promises c).map (·.1)
  | .deliver c _ | .timeout c _ | .refuse c _ | .resume c _ => (s.requests c).map (·.1)

end

/-- Carry out an effect. -/
def apply (s : Server) (ref : RunRef) (c : RequestId) (effect : RunEffect) : Server where
  state := { s.state with
    registry := effect.registry
    records := Function.update s.state.records ref (some effect.run) }
  requests := Function.update s.requests c (effect.stage.map fun stage => (ref, stage))
  promises := Function.update s.promises c (effect.promise.map fun promise => (ref, promise))
  nextRequest := max s.nextRequest (c + 1)
  trace := s.trace ++ entriesOn c ref effect.observations

theorem apply_record (s : Server) (ref : RunRef) (c : RequestId) (effect : RunEffect) :
    (s.apply ref c effect).state.records ref = some effect.run := by
  simp [apply]

/-- Applying an effect touches its run and its request. -/
theorem apply_changes {s : Server} {ref : RunRef} {c : RequestId} (effect : RunEffect)
    (hrequest : ∀ owner stage, s.requests c = some (owner, stage) → owner = ref)
    (hpromise : ∀ owner promise, s.promises c = some (owner, promise) → owner = ref) :
    Changes s (s.apply ref c effect) ref effect.run c effect.stage effect.promise
      effect.observations where
  records := rfl
  requests := rfl
  promises := rfl
  trace := rfl
  requestOwner := hrequest
  promiseOwner := hpromise

/-! ## A request is an effect -/

section
variable {s : Server} {ref : RunRef} {run : RunRecord}

/-- Writing a run back as it is, under a number that is not in use. -/
theorem Fresh.apply_unused (hfresh : s.Fresh) (run : RunRecord)
    (observations : List RunObservation) :
    s.apply ref s.nextRequest ⟨s.state.registry, run, none, none, observations⟩ =
      { s.setRun ref run with
        nextRequest := s.nextRequest + 1
        trace := s.trace ++ entriesOn s.nextRequest ref observations } := by
  have hrequests : Function.update s.requests s.nextRequest none = s.requests :=
    (Function.eq_update_self_iff.mpr (hfresh.requests _ (Nat.le_refl _))).symm
  have hpromises : Function.update s.promises s.nextRequest none = s.promises :=
    (Function.eq_update_self_iff.mpr (hfresh.promises _ (Nat.le_refl _))).symm
  simp only [apply, setRun, Option.map_none, hrequests, hpromises]
  rw [Nat.max_eq_right (Nat.le_succ _)]

/-- A refusal applies its effect. -/
theorem Fresh.refuse_eq_apply (hfresh : s.Fresh) (hrecord : s.state.records ref = some run)
    (error : RequestError) :
    s.refuse (some ref) error =
      s.apply ref s.nextRequest (.refused s.state.registry run error) := by
  rw [RunEffect.refused, hfresh.apply_unused, setRun]
  rw [← Function.eq_update_self_iff.mpr hrecord]
  rfl

/-- So does a turn. -/
theorem enter_eq_apply (s : Server) (ref : RunRef) (turn : Turn) :
    s.enter ref turn = s.apply ref s.nextRequest (.ofTurn turn) := by
  simp only [enter, apply, RunEffect.ofTurn]
  rw [Nat.max_eq_right (Nat.le_succ _)]

theorem Fresh.take_eq_apply (hfresh : s.Fresh) (hrecord : s.state.records ref = some run)
    (result : Except RequestError Turn) :
    s.take ref result = s.apply ref s.nextRequest (.take s.state.registry run result) := by
  cases result with
  | error error => exact hfresh.refuse_eq_apply hrecord error
  | ok turn => exact enter_eq_apply s ref turn

variable [Host]

/-- A request on a run applies its effect. -/
theorem Fresh.handle_eq_apply {model : ModelAdapter} {request : Request} {runId : JsString}
    (hfresh : s.Fresh) (hrunId : request.runId = some runId) (hruns : s.state.runs runId = some ref)
    (hrecord : s.state.records ref = some run) :
    some (s.handle model request) =
      (run.requestEffect s.state.registry request).map (s.apply ref s.nextRequest) := by
  cases request with
  | createRun => cases hrunId
  | approveRun _ draw =>
    cases hrunId
    simp only [handle, onRun, hruns, hrecord, RunRecord.requestEffect, Option.map_some,
      hfresh.take_eq_apply hrecord]
  | simulateDrift _ now =>
    cases hrunId
    simp only [handle, onRun, hruns, hrecord, RunRecord.requestEffect, Option.map_some]
    cases simulateDrift run now with
    | error error => simp only [hfresh.refuse_eq_apply hrecord]
    | ok drifted =>
      -- a request answered at once has neither stage nor promise
      simp only [hfresh.apply_unused]
      rfl
  | replayRun _ reads =>
    cases hrunId
    simp only [handle, onRun, hruns, hrecord, RunRecord.requestEffect, Option.map_some,
      hfresh.take_eq_apply hrecord]
  | reconcileRun _ reads =>
    cases hrunId
    simp only [handle, onRun, hruns, hrecord, RunRecord.requestEffect, Option.map_some,
      hfresh.take_eq_apply hrecord]
  | verifyRunLedger _ stamp =>
    cases hrunId
    simp only [handle, onRun, hruns, hrecord, RunRecord.requestEffect, Option.map_some]
    cases verifyRunLedger run stamp with
    | error error => simp only [hfresh.refuse_eq_apply hrecord]
    | ok result =>
      simp only [hfresh.apply_unused]
      rfl

/-! ## A step of a request in flight is an effect -/

omit [Host] in
/-- An effect that leaves the promise of its request alone. -/
private theorem apply_stage {c : RequestId} (hc : c < s.nextRequest)
    (hpromise : ∀ owner promise, s.promises c = some (owner, promise) → owner = ref)
    (registry : CapabilityRegistry) (run : RunRecord) (stage : Option RequestStage)
    (observations : List RunObservation) :
    s.apply ref c ⟨registry, run, stage, ofRun ref (s.promises c), observations⟩ =
      { s with
        state := { s.state with
          registry := registry
          records := Function.update s.state.records ref (some run) }
        requests := Function.update s.requests c (stage.map fun stage => (ref, stage))
        trace := s.trace ++ entriesOn c ref observations } := by
  simp only [apply]
  rw [← promises_eq_update hpromise, Nat.max_eq_left hc]

/-- The end of a wait applies its effect. -/
private theorem Fresh.wake_eq_apply (hfresh : s.Fresh) (hrecord : s.state.records ref = some run)
    {c : RequestId} {stage : RequestStage} (hrequest : s.requests c = some (ref, stage))
    (wakeup : Wakeup) (stamp : Stamp) :
    s.wake c wakeup stamp =
      (run.wakeEffect s.state.registry (some stage) (ofRun ref (s.promises c)) wakeup stamp).map
        (s.apply ref c) := by
  obtain ⟨-, hpromise⟩ := hfresh.owned hrequest
  have hc : c < s.nextRequest := hfresh.lt_nextRequest (.inl (by simp [hrequest]))
  rw [wake, hrequest]
  cases stage with
  | settled => rfl
  | waiting waiting =>
    simp only [hrecord, Option.bind_some, RunRecord.wakeEffect, Option.map_map]
    congr 1
    funext result
    simp only [Function.comp_apply, apply_stage hc hpromise, entriesOn_nil, List.append_nil,
      Option.map_some]

/-- A step that belongs to a run that is there applies its effect. -/
theorem step_eq_apply {model : ModelAdapter} {e : ServerEvent} (hfresh : s.Fresh)
    (hactor : s.actor model e = some ref) (hrecord : s.state.records ref = some run)
    (hcreate : ∀ scenarioId draw, e ≠ .request (.createRun scenarioId draw)) :
    s.step model e =
      (run.effect s.state.registry (ofRun ref (s.requests (e.number s.nextRequest)))
        (ofRun ref (s.promises (e.number s.nextRequest))) e).map
        (s.apply ref (e.number s.nextRequest)) := by
  cases e with
  | request request =>
    have hruns : request.runId.bind s.state.runs = some ref := by
      cases request with
      | createRun scenarioId draw => exact absurd rfl (hcreate scenarioId draw)
      | _ => exact hactor
    obtain ⟨runId, hrunId, hruns⟩ := Option.bind_eq_some_iff.mp hruns
    exact hfresh.handle_eq_apply hrunId hruns hrecord
  | execute c draw =>
    obtain ⟨⟨owner, promise⟩, hpromise, rfl⟩ := Option.map_eq_some_iff.mp hactor
    have hrequestOwner : ∀ owner' stage, s.requests c = some (owner', stage) → owner' = owner :=
      fun owner' stage howner => hfresh.owners c owner' stage owner _ howner hpromise
    -- the request's own entry is written back as it was
    have hc : c < s.nextRequest := hfresh.lt_nextRequest (.inr (by simp [hpromise]))
    have hown : ofRun owner (some (owner, promise)) = some promise := by simp [ofRun]
    simp only [step, execute, ServerEvent.number, hpromise, RunRecord.effect, hown]
    cases promise with
    | sleeping operation capability params =>
      simp only [hrecord, Option.map_some, Option.some.injEq]
      rw [apply]
      simp only [← requests_eq_update hrequestOwner, Nat.max_eq_left hc, entriesOn_nil,
        List.append_nil, Option.map_some]
      rfl
    | executed | lookedUp => rfl
  | deliver c stamp =>
    obtain ⟨⟨owner, stage⟩, hrequest, rfl⟩ := Option.map_eq_some_iff.mp hactor
    have hwake := hfresh.wake_eq_apply hrecord hrequest
    simp only [step, ServerEvent.number, RunRecord.effect]
    have hstage : ofRun owner (s.requests c) = some stage := by simp [hrequest, ofRun]
    rw [hstage]
    cases hpromise : s.promises c with
    | none => rfl
    | some entry =>
      -- the promise and the request have one owner
      obtain ⟨promiseOwner, promise⟩ := entry
      obtain rfl := hfresh.owners c owner stage promiseOwner promise hrequest hpromise
      rw [hpromise] at hwake
      simp only [ofRun, if_true, Option.bind_some] at hwake ⊢
      cases promise.wakeup with
      | none => rfl
      | some wakeup => exact hwake wakeup stamp
  | timeout c stamp =>
    obtain ⟨⟨owner, stage⟩, hrequest, rfl⟩ := Option.map_eq_some_iff.mp hactor
    have hstage : ofRun owner (s.requests c) = some stage := by simp [hrequest, ofRun]
    simp only [ServerEvent.number, RunRecord.effect, hstage]
    exact hfresh.wake_eq_apply hrecord hrequest .timerFired stamp
  | refuse c stamp =>
    obtain ⟨⟨owner, stage⟩, hrequest, rfl⟩ := Option.map_eq_some_iff.mp hactor
    have hstage : ofRun owner (s.requests c) = some stage := by simp [hrequest, ofRun]
    simp only [ServerEvent.number, RunRecord.effect, hstage]
    exact hfresh.wake_eq_apply hrecord hrequest .refusalDelivered stamp
  | resume c now =>
    obtain ⟨⟨owner, stage⟩, hrequest, rfl⟩ := Option.map_eq_some_iff.mp hactor
    obtain ⟨-, hpromise⟩ := hfresh.owned hrequest
    have hstage : ofRun owner (some (owner, stage)) = some stage := by simp [ofRun]
    have hc : c < s.nextRequest := hfresh.lt_nextRequest (.inl (by simp [hrequest]))
    simp only [step, resume, ServerEvent.number, RunRecord.effect, hrequest, hstage]
    cases stage with
    | waiting => rfl
    | settled settled =>
      simp only [hrecord, Option.map_some, apply_stage hc hpromise]
      rfl

/-! ## Every step -/

omit [Host] in
/-- Run ids lead to run objects that are there. -/
structure Linked (s : Server) : Prop where
  registered : ∀ runId ref, s.state.runs runId = some ref → (s.state.records ref).isSome

omit [Host] in
theorem linked_empty : Linked {} where
  registered _ _ h := by cases h

/-- Every step there is: nothing but an answer, a new run, or the effect on the run the
    step belongs to. -/
inductive StepCases (model : ModelAdapter) (s : Server) (e : ServerEvent) : Server → Prop
  | idle (error : RequestError) (hactor : s.actor model e = none) (hrequest : e.isRequest = true) :
      StepCases model s e (s.refuse none error)
  | born (scenarioId : JsString) (draw : CreateDraw) (run : RunRecord) (turn : Turn)
      (he : e = .request (.createRun scenarioId draw))
      (hnew : proposeRun model scenarioId draw = .ok run)
      (hturn : turn = followVerdict s.state.registry run draw.authorize)
      (hactor : s.actor model e = some s.state.nextRef) :
      StepCases model s e
        ((s.register turn.run.runId).apply s.state.nextRef s.nextRequest (.ofTurn turn))
  | acted (ref : RunRef) (run : RunRecord) (effect : RunEffect)
      (hactor : s.actor model e = some ref) (hrecord : s.state.records ref = some run)
      (heffect : run.effect s.state.registry (ofRun ref (s.requests (e.number s.nextRequest)))
        (ofRun ref (s.promises (e.number s.nextRequest))) e = some effect) :
      StepCases model s e (s.apply ref (e.number s.nextRequest) effect)

/-- A step on a run that is there. -/
private theorem acted_cases {model : ModelAdapter} {s' : Server} {e : ServerEvent}
    (hfresh : s.Fresh) (hactor : s.actor model e = some ref)
    (hrecord : s.state.records ref = some run)
    (hcreate : ∀ scenarioId draw, e ≠ .request (.createRun scenarioId draw))
    (hstep : s.step model e = some s') : StepCases model s e s' := by
  rw [step_eq_apply hfresh hactor hrecord hcreate] at hstep
  obtain ⟨effect, heffect, rfl⟩ := Option.map_eq_some_iff.mp hstep
  exact .acted ref run effect hactor hrecord heffect

/-- What is woken is a request on a run that is there. -/
private theorem record_of_wake {s' : Server} {c : RequestId} {wakeup : Wakeup} {stamp : Stamp}
    (h : s.wake c wakeup stamp = some s') :
    ∃ ref run, (s.requests c).map (·.1) = some ref ∧ s.state.records ref = some run := by
  rw [wake] at h
  split at h
  · rename_i ref waiting hrequest
    obtain ⟨run, hrecord, -⟩ := Option.bind_eq_some_iff.mp h
    exact ⟨ref, run, by rw [hrequest]; rfl, hrecord⟩
  · cases h

/-- A step is one of these. -/
theorem step_cases {model : ModelAdapter} {s' : Server} {e : ServerEvent} (hfresh : s.Fresh)
    (hlinked : s.Linked) (hstep : s.step model e = some s') : StepCases model s e s' := by
  cases e with
  | request request =>
    cases hrunId : request.runId with
    | none =>
      obtain rfl := Option.some.inj hstep
      -- only a create request names no run
      cases request with
      | createRun scenarioId draw =>
        simp only [handle, createRun]
        cases hnew : proposeRun model scenarioId draw with
        | error error =>
          exact .idle error (by simp [actor, createRun, hnew, Except.bind, bind]) rfl
        | ok run =>
          have hactor : s.actor model (.request (.createRun scenarioId draw)) =
              some s.state.nextRef := by simp [actor, createRun, hnew, Except.bind, bind]
          show StepCases model s _ ((s.register _).enter s.state.nextRef _)
          rw [enter_eq_apply]
          exact .born scenarioId draw run _ rfl hnew rfl hactor
      | _ => cases hrunId
    | some runId =>
      have hactor : s.actor model (.request request) = s.state.runs runId := by
        cases request <;> cases hrunId <;> rfl
      have hcreate : ∀ scenarioId draw,
          ServerEvent.request request ≠ .request (.createRun scenarioId draw) := by
        rintro scenarioId draw heq
        cases heq
        cases hrunId
      cases hruns : s.state.runs runId with
      -- an id that is not registered is answered, and nothing else happens
      | none =>
        obtain rfl := Option.some.inj hstep
        have hidle : StepCases model s (.request request) (s.refuse none
            (.orchestrator .notFound (js "no run with id \"" ++ runId ++ js "\""))) :=
          .idle _ (hactor.trans hruns) rfl
        cases request <;> cases hrunId <;> simpa only [handle, onRun, hruns] using hidle
      | some ref =>
        obtain ⟨run, hrecord⟩ := Option.isSome_iff_exists.mp (hlinked.registered runId ref hruns)
        exact acted_cases hfresh (hactor.trans hruns) hrecord hcreate hstep
  | execute c draw =>
    have hexecute : s.execute c draw = some s' := hstep
    rw [execute] at hexecute
    split at hexecute
    · rename_i ref operation capability params hpromise
      obtain ⟨run, hrecord, -⟩ := Option.map_eq_some_iff.mp hexecute
      have hactor : s.actor model (.execute c draw) = some ref := by simp [actor, hpromise]
      exact acted_cases hfresh hactor hrecord (fun _ _ h => by cases h) hstep
    · cases hexecute
  | deliver c stamp =>
    obtain ⟨_, -, hwakeup⟩ := Option.bind_eq_some_iff.mp hstep
    obtain ⟨wakeup, -, hwake⟩ := Option.bind_eq_some_iff.mp hwakeup
    obtain ⟨ref, run, hactor, hrecord⟩ := record_of_wake hwake
    exact acted_cases hfresh hactor hrecord (fun _ _ h => by cases h) hstep
  | timeout c stamp | refuse c stamp =>
    obtain ⟨ref, run, hactor, hrecord⟩ := record_of_wake hstep
    exact acted_cases hfresh hactor hrecord (fun _ _ h => by cases h) hstep
  | resume c now =>
    have hresume : s.resume c now = some s' := hstep
    rw [resume] at hresume
    split at hresume
    · rename_i ref settled hrequest
      obtain ⟨run, hrecord, -⟩ := Option.map_eq_some_iff.mp hresume
      have hactor : s.actor model (.resume c now) = some ref := by simp [actor, hrequest]
      exact acted_cases hfresh hactor hrecord (fun _ _ h => by cases h) hstep
    · cases hresume

/-- The number of a step belongs to its run, or to nobody yet. -/
theorem Fresh.number_owner {model : ModelAdapter} {e : ServerEvent} (hfresh : s.Fresh)
    (hactor : s.actor model e = some ref) :
    (∀ owner stage, s.requests (e.number s.nextRequest) = some (owner, stage) → owner = ref) ∧
      ∀ owner promise, s.promises (e.number s.nextRequest) = some (owner, promise) →
        owner = ref := by
  cases e with
  | request request =>
    -- a new number has no owner at all
    constructor
    · intro owner stage howner
      cases (hfresh.requests _ (Nat.le_refl _)).symm.trans howner
    · intro owner promise howner
      cases (hfresh.promises _ (Nat.le_refl _)).symm.trans howner
  | execute c draw =>
    obtain ⟨⟨owner, promise⟩, hpromise, rfl⟩ := Option.map_eq_some_iff.mp hactor
    constructor
    · exact fun owner' stage howner => hfresh.owners c owner' stage owner _ howner hpromise
    · intro owner' promise' howner
      cases hpromise.symm.trans howner
      rfl
  | deliver c _ | timeout c _ | refuse c _ | resume c _ =>
    obtain ⟨⟨owner, stage⟩, hrequest, rfl⟩ := Option.map_eq_some_iff.mp hactor
    exact hfresh.owned hrequest

omit [Host] in
/-- Registering a run id changes no run. -/
theorem system_register (s : Server) (runId : JsString) (ref : RunRef) :
    (s.register runId).system ref = s.system ref := rfl

/-- A step leaves the runs it does not belong to as they are. -/
theorem StepCases.system_eq {model : ModelAdapter} {s' : Server} {e : ServerEvent}
    (h : StepCases model s e s') (hfresh : s.Fresh) {other : RunRef}
    (hactor : s.actor model e ≠ some other) : s'.system other = s.system other := by
  cases h with
  | idle error => exact system_refuse_none s error other
  | born scenarioId draw run turn he hnew hturn hborn =>
    have hne : other ≠ s.state.nextRef := fun heq => hactor (heq ▸ hborn)
    rw [← system_register s turn.run.runId other]
    refine (apply_changes (.ofTurn turn) ?_ ?_).system_of_ne hne
    · intro owner stage howner
      cases (hfresh.requests _ (Nat.le_refl _)).symm.trans howner
    · intro owner promise howner
      cases (hfresh.promises _ (Nat.le_refl _)).symm.trans howner
  | acted ref run effect hacts hrecord heffect =>
    have hne : other ≠ ref := fun heq => hactor (heq ▸ hacts)
    obtain ⟨hrequest, hpromise⟩ := hfresh.number_owner hacts
    exact (apply_changes effect hrequest hpromise).system_of_ne hne

/-- A step, seen from a run: another's, or its effect on this one. -/
theorem StepCases.acts {model : ModelAdapter} {s' : Server} {e : ServerEvent}
    (h : StepCases model s e s') (hfresh : s.Fresh) {sys : RunSystem}
    (hsystem : s.system ref = some sys) :
    (s.actor model e ≠ some ref ∧ s'.system ref = some sys) ∨
      (s.actor model e = some ref ∧ ∃ effect,
        sys.run.effect s.state.registry (sys.requests (e.number s.nextRequest))
          (sys.promises (e.number s.nextRequest)) e = some effect ∧
        s'.system ref = some (sys.change effect.run (e.number s.nextRequest) effect.stage
          effect.promise effect.observations)) := by
  by_cases hactor : s.actor model e = some ref
  · obtain ⟨run, hrecord, rfl⟩ := Option.map_eq_some_iff.mp hsystem
    cases h with
    | idle error hnobody => cases hactor.symm.trans hnobody
    | born scenarioId draw _ turn he hnew hturn hborn =>
      -- a run that is there is not born
      obtain rfl := Option.some.inj (hactor.symm.trans hborn)
      cases (hfresh.records _ (Nat.le_refl _)).symm.trans hrecord
    | acted owner run' effect hacts hrecord' heffect =>
      obtain rfl := Option.some.inj (hactor.symm.trans hacts)
      obtain rfl := Option.some.inj (hrecord.symm.trans hrecord')
      obtain ⟨hrequest, hpromise⟩ := hfresh.number_owner hactor
      exact .inr ⟨hactor, effect, heffect, (apply_changes effect hrequest hpromise).system_self _⟩
  · exact .inl ⟨hactor, (h.system_eq hfresh hactor).trans hsystem⟩

/-- No step takes a number back. -/
theorem StepCases.nextRequest_le {model : ModelAdapter} {s' : Server} {e : ServerEvent}
    (h : StepCases model s e s') : s.nextRequest ≤ s'.nextRequest := by
  cases h with
  | idle => exact Nat.le_succ _
  | born | acted => exact Nat.le_max_left _ _

/-- Run ids keep leading to runs that are there. -/
theorem StepCases.linked {model : ModelAdapter} {s' : Server} {e : ServerEvent}
    (h : StepCases model s e s') (hlinked : s.Linked) : s'.Linked where
  registered runId ref hruns := by
    cases h with
    | idle error => exact hlinked.registered runId ref hruns
    | born scenarioId draw run turn he hnew hturn hborn =>
      by_cases hborn' : ref = s.state.nextRef
      · rw [hborn']
        exact Option.isSome_iff_exists.mpr ⟨_, Function.update_self ..⟩
      · have hold : s.state.runs runId = some ref := by
          -- an id that maps to an older run was not overwritten
          by_cases hrunId : runId = turn.run.runId
          · subst hrunId
            cases (Function.update_self turn.run.runId _ _).symm.trans hruns
            exact absurd rfl hborn'
          · exact (Function.update_of_ne hrunId _ _).symm.trans hruns
        have hsome := hlinked.registered runId ref hold
        rwa [← Function.update_of_ne hborn' (some turn.run) s.state.records] at hsome
    | acted actor run effect hacts hrecord heffect =>
      by_cases hself : ref = actor
      · rw [hself]
        exact Option.isSome_iff_exists.mpr ⟨_, Function.update_self ..⟩
      · have hsome := hlinked.registered runId ref hruns
        rwa [← Function.update_of_ne hself (some effect.run) s.state.records] at hsome

/-- Numbers are in order and run ids lead to runs that are there, in every reachable
    state. -/
theorem run_ordered {model : ModelAdapter} {events : List ServerEvent}
    (hrun : Transition.run (step model) {} events = some s) : s.Fresh ∧ s.Linked := by
  refine Transition.run_invariant (P := fun s => s.Fresh ∧ s.Linked) ?_
    ⟨fresh_empty, linked_empty⟩ hrun
  rintro s e s' ⟨hfresh, hlinked⟩ hstep
  have hstepped : Stepped model (fun _ _ => True) s s' :=
    step_system hfresh (fun _ _ _ _ _ _ _ => trivial) hstep
  exact ⟨hstepped.fresh, (step_cases hfresh hlinked hstep).linked hlinked⟩

/-! ## Runs that see some events only -/

/-- A step that belongs to the run is one of these. -/
def Sees (model : ModelAdapter) (ref : RunRef) (C : ServerEvent → Prop) (s : Server)
    (e : ServerEvent) : Prop :=
  s.actor model e = some ref → C e

/-- A run keeps what the steps it sees keep. New requests have numbers from `first` on. -/
theorem run_sees {model : ModelAdapter} {C : ServerEvent → Prop} {P : RunSystem → Prop}
    {first : RequestId}
    (hstep : ∀ registry next sys e effect, P sys → C e → first ≤ next → sys.Unused next →
      sys.run.effect registry (sys.requests (e.number next)) (sys.promises (e.number next)) e =
        some effect →
      P (sys.change effect.run (e.number next) effect.stage effect.promise effect.observations))
    {s' : Server} {later : List ServerEvent} {sys : RunSystem} (hfresh : s.Fresh)
    (hlinked : s.Linked) (hfirst : first ≤ s.nextRequest) (hsystem : s.system ref = some sys)
    (hsys : P sys) (hsees : Transition.Meets (step model) (Sees model ref C) s later)
    (hrun : Transition.run (step model) s later = some s') :
    s'.Fresh ∧ s'.Linked ∧ first ≤ s'.nextRequest ∧ ∃ sys', s'.system ref = some sys' ∧ P sys' := by
  refine Transition.run_invariant_of_meets (C := Sees model ref C) (P := fun m => m.Fresh ∧
    m.Linked ∧ first ≤ m.nextRequest ∧ ∃ sys, m.system ref = some sys ∧ P sys) ?_
    ⟨hfresh, hlinked, hfirst, sys, hsystem, hsys⟩ hsees hrun
  -- the system changes only where the run itself takes the step
  rintro m e m' ⟨hfresh, hlinked, hfirst, sys, hsystem, hsys⟩ hC he
  have hcases := step_cases hfresh hlinked he
  have hstepped : Stepped model (fun _ _ => True) m m' :=
    step_system hfresh (fun _ _ _ _ _ _ _ => trivial) he
  refine ⟨hstepped.fresh, hcases.linked hlinked, hfirst.trans hcases.nextRequest_le, ?_⟩
  rcases hcases.acts hfresh hsystem with ⟨-, hsame⟩ | ⟨hactor, effect, heffect, hchanged⟩
  · exact ⟨sys, hsame, hsys⟩
  · obtain ⟨run, -, rfl⟩ := Option.map_eq_some_iff.mp hsystem
    exact ⟨_, hchanged, hstep _ _ _ _ _ hsys (hC hactor) hfirst (hfresh.unused ref run) heffect⟩

end

end Server

end ActionHarbor
