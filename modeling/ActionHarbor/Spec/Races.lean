import ActionHarbor.Spec.Answers
import ActionHarbor.Spec.RunLife

/-!
# How a race ends

A call that has reached its adapter waits for the answer or the timer, whichever is first.
What comes first decides what becomes of the run, whatever else happens on it or elsewhere
until the request is resumed: an answer makes it verified, the timer leaves the outcome
unknown, for a reconciliation to resolve.

## Key results

- `RunSystem.Decided.step`: no other step gets between a result and its run
- `Server.race_decides`: what the first of answer and timer leads to
-/

namespace ActionHarbor

section
variable [Host]

/-- Request `c` has settled with this result and its run waits for it, or the run has gone
    on from the state the result leads to. -/
inductive RunSystem.Decided (c : RequestId) (result : ExecuteActionResult) (state : RunState)
    (sys : RunSystem) : Prop
  | pending (hrequest : sys.requests c = some (.settled (.returned result)))
      (hstate : sys.run.state = .authorized)
  | decided (hleads : state.Leads sys.run.state)

/-- No other step gets in between: the first call of a run is alone, and nothing else moves an
    authorized run. -/
theorem RunSystem.Decided.step {C : RunSystem → CallReads → Prop} {sys sys' : RunSystem}
    {c : RequestId} {result : ExecuteActionResult} {state : RunState}
    (h : sys.Decided c result state)
    (hresult : applyExecutionResult .authorized result = .ok state) (hwellkept : sys.Wellkept)
    (hstep : RunStep C sys sys') : sys'.Decided c result state := by
  cases h with
  | decided hleads => exact .decided (hleads.trans (hstep.leads hwellkept.sound))
  | pending hrequest hstate =>
    -- a request that is new, or still waits, is another one
    have hother : ∀ {c' : RequestId} {stage : Option RequestStage},
        sys.requests c' ≠ some (.settled (.returned result)) →
        Function.update sys.requests c' stage c = some (.settled (.returned result)) := by
      intro c' stage hne
      have hc : c ≠ c' := fun heq => hne (heq ▸ hrequest)
      rw [Function.update_of_ne hc]
      exact hrequest
    cases hstep with
    | refused c' error hunused => exact .pending (hother (by simp [hunused.requests])) hstate
    | approved c' registry draw turn hunused hturn =>
      cases approveRun_cases hwellkept.sound.pinned hturn with
      | approved consumed row hrequired => cases hrequired.symm.trans hstate
    | replayed c' registry reads turn hunused hturn =>
      cases (replayRun_eq_ok hturn).1.symm.trans hstate
    | reconciled c' registry reads turn hunused hreads hturn =>
      rcases (reconcileRun_eq_ok hturn).1 with hunknown | hunknown <;>
        cases hunknown.symm.trans hstate
    | drifted c' now run hunused hdrift =>
      cases (simulateDrift_eq_ok hdrift).1.symm.trans hstate
    | checked c' stamp run result' hunused hverify =>
      obtain ⟨row, -, rfl⟩ := verifyRunLedger_eq_ok hverify
      exact .pending (hother (by simp [hunused.requests])) hstate
    | executed c' =>
      refine .pending ?_ hstate
      rw [RunSystem.change_requests, Function.update_eq_self]
      exact hrequest
    | woke c' waiting wakeup registry stamp shared settled hwaiting =>
      exact .pending (hother (by simp [hwaiting])) hstate
    | resumed c' settled now run outcome hsettled hfinish =>
      obtain rfl := hwellkept.resumable.first hstate c c' _ _ hrequest hsettled
      cases hrequest.symm.trans hsettled
      rw [finishExecution, hstate, hresult] at hfinish
      cases hfinish
      exact .decided (.refl state)

namespace Server

/-- From here on request `c` brings this result to its run, whatever happens. -/
def Brings (model : ModelAdapter) (s : Server) (ref : RunRef) (c : RequestId)
    (result : ExecuteActionResult) (state : RunState) : Prop :=
  ∀ later s', Transition.run (step model) s later = some s' →
    s'.requests c = some (ref, .settled (.returned result)) ∨
      ∃ run, s'.state.records ref = some run ∧ state.Leads run.state

/-- A first call that has settled brings its result. -/
theorem brings_of_settled {model : ModelAdapter} {events : List ServerEvent} {s : Server}
    (hrun : Transition.run (step model) {} events = some s) {c : RequestId} {ref : RunRef}
    {run : RunRecord} {result : ExecuteActionResult} {state : RunState}
    (hrecord : s.state.records ref = some run) (hstate : run.state = .authorized)
    (hrequest : s.requests c = some (ref, .settled (.returned result)))
    (hresult : applyExecutionResult .authorized result = .ok state) :
    s.Brings model ref c result state := by
  intro later s' hlater
  have hsystem : s.system ref = some (s.view ref run) := by rw [system, hrecord]; rfl
  have hpending : (s.view ref run).Decided c result state :=
    .pending (ofRun_eq_some.mpr hrequest) hstate
  obtain ⟨sys', hsystem', -, hdecided⟩ := system_run
    (P := fun sys => sys.Wellkept ∧ sys.Decided c result state)
    (fun _ _ h hstep => ⟨h.1.step hstep, h.2.step hresult h.1 hstep⟩)
    (run_fresh hrun) hsystem ⟨run_wellkept hrun hsystem, hpending⟩ hlater
  obtain ⟨run', hrecord', rfl⟩ := Option.map_eq_some_iff.mp hsystem'
  cases hdecided with
  | pending hrequest' => exact .inl (ofRun_eq_some.mp hrequest')
  | decided hleads => exact .inr ⟨run', hrecord', hleads⟩

/-- The end of a wait settles its request, on a run in the state it was in. -/
theorem wake_settles {s : Server} {c : RequestId} {ref : RunRef} {waiting : Waiting}
    {wakeup : Wakeup} {stamp : Stamp} {run : RunRecord} {shared : Shared} {settled : Settled}
    (hrequest : s.requests c = some (ref, .waiting waiting))
    (hrecord : s.state.records ref = some run)
    (hresume : waiting.resume wakeup ⟨s.state.registry, run.operationStore, run.ledger⟩ stamp =
      some (shared, settled)) :
    ∃ m run', s.wake c wakeup stamp = some m ∧ m.state.records ref = some run' ∧
      run'.state = run.state ∧ m.requests c = some (ref, .settled settled) := by
  rw [wake, hrequest]
  simp only [hrecord, Option.bind_some, hresume, Option.map_some, Option.some.injEq]
  exact ⟨_, _, rfl, Function.update_self .., rfl, Function.update_self ..⟩

/-- The first of answer and timer decides. -/
theorem race_decides {model : ModelAdapter} {events : List ServerEvent} {s : Server}
    (hrun : Transition.run (step model) {} events = some s) {c : RequestId} {ref : RunRef}
    {call : RacingCall} (hrequest : s.requests c = some (ref, .waiting (.executing call)))
    (stamp : Stamp) :
    (∀ receipt, s.promises c = some (ref, .executed (.ok receipt)) →
      ∃ m auditEvents, s.step model (.deliver c stamp) = some m ∧ m.Brings model ref c
        (.ok receipt false call.input.operation.operationId none auditEvents) .verified) ∧
      ∃ m auditEvents, s.step model (.timeout c stamp) = some m ∧ m.Brings model ref c
        (.unknownOutcome call.input.operation.operationId auditEvents) .unknownOutcome := by
  have hattended := run_attended hrun
  obtain ⟨run, hrecord⟩ := Option.isSome_iff_exists.mp
    (hattended.records ref (hattended.fresh.requestRefs c ref _ hrequest))
  have hsystem : s.system ref = some (s.view ref run) := by rw [system, hrecord]; rfl
  have hwellkept := run_wellkept hrun hsystem
  have hwaiting : (s.view ref run).requests c = some (.waiting (.executing call)) :=
    ofRun_eq_some.mpr hrequest
  -- a run whose first call still waits has been authorized
  have hstate : run.state = .authorized :=
    (hwellkept.resumable.requests c _ hwaiting).first rfl
  constructor
  · intro receipt hpromise
    -- what the adapters of the server return passes the postcondition
    have hunfailing : (s.view ref run).Unfailing := run_unfailing hrun hsystem
    have hwakes : (s.view ref run).Wakes c (.executeResolved receipt) :=
      .delivered _ _ (ofRun_eq_some.mpr hpromise) rfl
    obtain ⟨⟨shared, settled⟩, hresume⟩ : ∃ result, Waiting.resume (.executing call)
        (.executeResolved receipt) ⟨s.state.registry, run.operationStore, run.ledger⟩ stamp =
          some result := ⟨_, rfl⟩
    obtain ⟨m, run', hwake, hrecord', hstate', hsettled⟩ :=
      wake_settles hrequest hrecord hresume
    have hdeliver : s.step model (.deliver c stamp) = some m := by
      rw [step, hpromise]
      exact hwake
    cases resume_cases hresume with
    | verified _ _ _ entry hreceives hverified =>
      cases hreceives
      exact ⟨m, call.auditEvents ++ [entry], hdeliver, brings_of_settled
        (Transition.run_concat_eq_some.mpr ⟨s, hrun, hdeliver⟩) hrecord' (hstate'.trans hstate)
        hsettled rfl⟩
    | unverified _ _ _ entry hreceives hunverified =>
      cases (hunfailing.verified hwellkept hwaiting hwakes hreceives).symm.trans hunverified
  · obtain ⟨⟨shared, settled⟩, hresume⟩ : ∃ result, Waiting.resume (.executing call)
        .timerFired ⟨s.state.registry, run.operationStore, run.ledger⟩ stamp = some result :=
      ⟨_, rfl⟩
    obtain ⟨m, run', hwake, hrecord', hstate', hsettled⟩ :=
      wake_settles hrequest hrecord hresume
    have htimeout : s.step model (.timeout c stamp) = some m := hwake
    cases resume_cases hresume with
    | timedOut _ entry =>
      exact ⟨m, call.auditEvents ++ [entry], htimeout, brings_of_settled
        (Transition.run_concat_eq_some.mpr ⟨s, hrun, htimeout⟩) hrecord' (hstate'.trans hstate)
        hsettled rfl⟩
    | verified _ _ _ _ hreceives | unverified _ _ _ _ hreceives => cases hreceives

end Server

end

namespace Sample

section
attribute [local instance] node

/-- The message of the approved run, with its receipt at the adapter. -/
def receivedMessage : List ServerEvent :=
  approvedMessage ++ [.execute 1 ⟨now, js "msg_000001", now, []⟩]

/-- The call of the run races, and its answer is there. -/
private def raced (s : Server) : Bool :=
  match s.requests 1, s.promises 1 with
  | some (0, .waiting (.executing _)), some (0, .executed (.ok _)) => true
  | _, _ => false

theorem receivedMessage_decided :
    ∃ s call receipt m auditEvents,
      Transition.run (Server.step FakeModelAdapter.propose) {} receivedMessage = some s ∧
      s.requests 1 = some (0, .waiting (.executing call)) ∧
      s.promises 1 = some (0, .executed (.ok receipt)) ∧
      s.step FakeModelAdapter.propose (.deliver 1 (stamp "evt_verified")) = some m ∧
      m.Brings FakeModelAdapter.propose 0 1
        (.ok receipt false call.input.operation.operationId none auditEvents) .verified := by
  have hraced : ∃ s ∈ Transition.run (Server.step FakeModelAdapter.propose) {} receivedMessage,
      raced s = true := by
    decide +kernel
  obtain ⟨s, hs, hraced⟩ := hraced
  unfold raced at hraced
  split at hraced
  · rename_i call receipt hrequest hpromise
    obtain ⟨m, auditEvents, hdeliver, hbrings⟩ :=
      (Server.race_decides hs hrequest (stamp "evt_verified")).1 receipt hpromise
    exact ⟨s, call, receipt, m, auditEvents, hs, hrequest, hpromise, hdeliver, hbrings⟩
  · cases hraced

end

end Sample

end ActionHarbor
