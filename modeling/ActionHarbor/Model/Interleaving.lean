import ActionHarbor.Model.Gateway

/-!
# Interleavings of executeAction calls

Any number of `executeAction` calls over one registry, as a step function. A
step is the recording of a capability, the synchronous part of a new call, or
the continuation of a call whose wait ended. The adapter, the timers and the
scheduler are the environment: what they answer and when is the label.

Each call names a session, the store, ledger and adapter it is given; with one
session all calls share them. `trace` lists what happened, newest last.
-/

namespace ActionHarbor

/-- Calls are numbered in the order they start. -/
abbrev CallId := Nat

/-- One observable happening of a run. -/
inductive Observation (ι : Type) where
  | recorded (capability : Capability)
  | started (c : CallId) (session : ι) (input : ExecuteActionInput)
  | executeInvoked (c : CallId) (session : ι) (operation : AdapterOperation)
      (capability : Capability) (params : JsValue)
  | lookupInvoked (c : CallId) (session : ι) (operationId : JsString)
  | woke (c : CallId) (wakeup : Wakeup)
  | settled (c : CallId) (settled : Settled)

/-- The shared state of a run and its calls in flight. -/
structure World (ι : Type) where
  registry : CapabilityRegistry := {}
  stores : ι → OperationStore := fun _ => {}
  ledgers : ι → AuditLedger := fun _ => {}
  pending : CallId → Option (ι × Waiting) := fun _ => none
  nextCall : CallId := 0
  trace : List (Observation ι) := []

/-- One scheduling step. -/
inductive Event (ι : Type) where
  | record (capability : Capability)
  | start (session : ι) (input : ExecuteActionInput) (reads : CallReads)
  | wake (c : CallId) (wakeup : Wakeup) (stamp : Stamp)

namespace World
variable {ι : Type} [DecidableEq ι]

/-- The objects a call of this session shares with others. -/
def shared (w : World ι) (session : ι) : Shared :=
  ⟨w.registry, w.stores session, w.ledgers session⟩

/-- Write the shared objects of a session back. -/
def setShared (w : World ι) (session : ι) (shared : Shared) : World ι :=
  { w with
    registry := shared.registry
    stores := Function.update w.stores session shared.operationStore
    ledgers := Function.update w.ledgers session shared.ledger }

/-- What a call does at the adapter boundary when it begins to wait. -/
def invocation (c : CallId) (session : ι) : Waiting → List (Observation ι)
  | .executing call =>
    [.executeInvoked c session call.input.operation call.capability call.input.params]
  | .refused _ _ => []
  | .lookingUp call => [.lookupInvoked c session call.prior.operationId]

/-- Enter a started call: settled at once, or waiting. -/
def enter (w : World ι) (session : ι) (input : ExecuteActionInput) :
    CallProgress → World ι
  | .done settled =>
    { w with
      nextCall := w.nextCall + 1
      trace := w.trace ++ [.started w.nextCall session input, .settled w.nextCall settled] }
  | .waiting waiting =>
    { w with
      nextCall := w.nextCall + 1
      pending := Function.update w.pending w.nextCall (some (session, waiting))
      trace := w.trace ++
        .started w.nextCall session input :: invocation w.nextCall session waiting }

/-- Leave with a settled call. -/
def leave (w : World ι) (c : CallId) (wakeup : Wakeup) (settled : Settled) : World ι :=
  { w with
    pending := Function.update w.pending c none
    trace := w.trace ++ [.woke c wakeup, .settled c settled] }

/-- One step; `none` when the label does not fit the state. -/
def step [Host] (w : World ι) : Event ι → Option (World ι)
  | .record capability =>
    some { w with
      registry := w.registry.record capability
      trace := w.trace ++ [.recorded capability] }
  | .start session input reads =>
    let (shared, progress) := executeAction (w.shared session) input reads
    some ((w.setShared session shared).enter session input progress)
  | .wake c wakeup stamp =>
    match w.pending c with
    | none => none
    | some (session, waiting) =>
      (waiting.resume wakeup (w.shared session) stamp).map fun (shared, settled) =>
        (w.setShared session shared).leave c wakeup settled

end World

end ActionHarbor
