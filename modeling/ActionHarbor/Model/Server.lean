import ActionHarbor.Model.AdapterInterleaving
import ActionHarbor.Model.Orchestrator

/-!
# The server

`AppState` and the event loop around it. A step is the synchronous part of a
request, the inner `execute` of a fake adapter, the end of a gateway call's wait,
or the continuation of the request behind a settled call. Any order of steps is a
run: delays, timers and the arrival of requests are the environment's.

A run is an object: requests in flight keep it whatever `runs` maps its id to, so
`RunRef` stands for its identity. `trace` lists what happened, newest last, with
the request it happened under and the run it happened on.
-/

namespace ActionHarbor

/-- The identity of a run object. -/
abbrev RunRef := Nat

/-- Requests are numbered in the order they arrive. -/
abbrev RequestId := Nat

/-- `AppState`, and the run objects it has handed out. -/
structure AppState where
  registry : CapabilityRegistry := {}
  runs : JsString → Option RunRef := fun _ => none
  records : RunRef → Option RunRecord := fun _ => none
  nextRef : RunRef := 0

/-- A request on a run that awaits `executeAction`. -/
inductive RequestStage where
  /-- the call has not settled -/
  | waiting (waiting : Waiting)
  /-- the call has settled and the request has not been resumed -/
  | settled (settled : Settled)

/-- One observable happening on a run. -/
inductive RunObservation where
  | minted (capability : Capability)
  | executeInvoked (operation : AdapterOperation) (capability : Capability) (params : JsValue)
  | lookupInvoked (operationId : JsString)
  | driftSimulated
  | responded (outcome : Except RequestError Unit)

/-- The answer a happening is. -/
def RunObservation.answer : RunObservation → Option (Except RequestError Unit)
  | .responded outcome => some outcome
  | _ => none

/-- A happening, under the number of its request and on the run it is about. -/
structure TraceEntry where
  request : RequestId
  run : Option RunRef
  observation : RunObservation

/-- What a request brought about on its run. -/
def entriesOn (c : RequestId) (ref : RunRef) (observations : List RunObservation) :
    List TraceEntry :=
  observations.map fun observation => ⟨c, some ref, observation⟩

/-- The server: its state, the requests in flight, the promises of the adapters. -/
structure Server where
  state : AppState := {}
  requests : RequestId → Option (RunRef × RequestStage) := fun _ => none
  promises : RequestId → Option (RunRef × AdapterPromise) := fun _ => none
  nextRequest : RequestId := 0
  trace : List TraceEntry := []

/-- A request, with the ids and clock readings it will draw. -/
inductive Request where
  | createRun (scenarioId : JsString) (draw : CreateDraw)
  | approveRun (runId : JsString) (draw : ApproveDraw)
  | simulateDrift (runId : JsString) (now : Instant)
  | replayRun (runId : JsString) (reads : CallReads)
  | reconcileRun (runId : JsString) (reads : CallReads)
  | verifyRunLedger (runId : JsString) (stamp : Stamp)

/-- One scheduling step. -/
inductive ServerEvent where
  | request (request : Request)
  | execute (c : RequestId) (draw : AdapterDraw)
  | deliver (c : RequestId) (stamp : Stamp)
  | timeout (c : RequestId) (stamp : Stamp)
  | refuse (c : RequestId) (stamp : Stamp)
  | resume (c : RequestId) (now : Instant)

/-! ## Turns on the server -/

namespace Turn

/-- The request after its turn, if it awaits the gateway. -/
def stage (turn : Turn) : Option RequestStage :=
  match turn.progress with
  | .responded _ => none
  | .calling (.done settled) => some (.settled settled)
  | .calling (.waiting waiting) => some (.waiting waiting)

/-- The promise the adapter handed out. `lookup` answers from the table of this
    moment. -/
def promise (turn : Turn) : Option AdapterPromise :=
  match turn.progress with
  | .calling (.waiting (.executing call)) =>
    some (.sleeping call.input.operation call.capability call.input.params)
  | .calling (.waiting (.lookingUp call)) =>
    some (.lookedUp (turn.run.adapter.inner.lookup call.prior.operationId))
  | _ => none

/-- What happened at the adapter boundary, or the answer. -/
def RequestProgress.observations : RequestProgress → List RunObservation
  | .responded outcome => [.responded outcome]
  | .calling (.waiting (.executing call)) =>
    [.executeInvoked call.input.operation call.capability call.input.params]
  | .calling (.waiting (.lookingUp call)) => [.lookupInvoked call.prior.operationId]
  | .calling _ => []

/-- What happened in a turn. -/
def observations (turn : Turn) : List RunObservation :=
  (turn.minted.map .minted).toList ++ RequestProgress.observations turn.progress

end Turn

namespace Server

/-- Answer a request that changed nothing. -/
def refuse (s : Server) (ref : Option RunRef) (error : RequestError) : Server :=
  { s with
    nextRequest := s.nextRequest + 1
    trace := s.trace ++ [⟨s.nextRequest, ref, .responded (.error error)⟩] }

/-- Write a run back. -/
def setRun (s : Server) (ref : RunRef) (run : RunRecord) : Server :=
  { s with state := { s.state with records := Function.update s.state.records ref (some run) } }

/-- Enter a request after its turn on a run. -/
def enter (s : Server) (ref : RunRef) (turn : Turn) : Server :=
  { s with
    state := { s.state with
      registry := turn.registry
      records := Function.update s.state.records ref (some turn.run) }
    requests := Function.update s.requests s.nextRequest (turn.stage.map fun stage => (ref, stage))
    promises :=
      Function.update s.promises s.nextRequest (turn.promise.map fun promise => (ref, promise))
    nextRequest := s.nextRequest + 1
    trace := s.trace ++ entriesOn s.nextRequest ref turn.observations }

/-- `state.runs.set(runId, run)` for a new run object. -/
def register (s : Server) (runId : JsString) : Server :=
  { s with state := { s.state with
      runs := Function.update s.state.runs runId (some s.state.nextRef)
      nextRef := s.state.nextRef + 1 } }

/-- `getRunOrThrow`, and the request on the run it finds. -/
def onRun (s : Server) (runId : JsString) (request : RunRef → RunRecord → Server) : Server :=
  match s.state.runs runId with
  | none =>
    s.refuse none (.orchestrator .notFound (js "no run with id \"" ++ runId ++ js "\""))
  | some ref =>
    match s.state.records ref with
    -- a registered run object is there
    | none => s
    | some run => request ref run

/-- A request that may be refused, or else takes a turn. -/
def take (s : Server) (ref : RunRef) (turn : Except RequestError Turn) : Server :=
  match turn with
  | .error error => s.refuse (some ref) error
  | .ok turn => s.enter ref turn

section
variable [Host]

/-- Handle a request up to its first `await` on the gateway. -/
def handle (model : ModelAdapter) (s : Server) : Request → Server
  | .createRun scenarioId draw =>
    match createRun model s.state.registry scenarioId draw with
    | .error error => s.refuse none error
    | .ok turn => (s.register turn.run.runId).enter s.state.nextRef turn
  | .approveRun runId draw =>
    s.onRun runId fun ref run => s.take ref (approveRun s.state.registry run draw)
  | .simulateDrift runId now =>
    s.onRun runId fun ref run =>
      match simulateDrift run now with
      | .error error => s.refuse (some ref) error
      | .ok run =>
        let s := s.setRun ref run
        { s with
          nextRequest := s.nextRequest + 1
          trace := s.trace ++
            entriesOn s.nextRequest ref [.driftSimulated, .responded (.ok ())] }
  | .replayRun runId reads =>
    s.onRun runId fun ref run => s.take ref (replayRun s.state.registry run reads)
  | .reconcileRun runId reads =>
    s.onRun runId fun ref run => s.take ref (reconcileRun s.state.registry run reads)
  | .verifyRunLedger runId stamp =>
    s.onRun runId fun ref run =>
      match verifyRunLedger run stamp with
      | .error error => s.refuse (some ref) error
      | .ok (run, _) =>
        let s := s.setRun ref run
        { s with
          nextRequest := s.nextRequest + 1
          trace := s.trace ++ entriesOn s.nextRequest ref [.responded (.ok ())] }

/-- Run the inner `execute` of a call, whether or not anyone still waits for it. -/
def execute (s : Server) (c : RequestId) (draw : AdapterDraw) : Option Server :=
  match s.promises c with
  | some (ref, .sleeping operation capability params) =>
    (s.state.records ref).map fun run =>
      let (adapter, outcome) :=
        run.adapter.execute (adapterKind run.scenario) operation capability params draw
      { s.setRun ref { run with adapter := adapter } with
        promises := Function.update s.promises c (some (ref, .executed outcome)) }
  | _ => none

/-- End the wait of a gateway call. -/
def wake (s : Server) (c : RequestId) (wakeup : Wakeup) (stamp : Stamp) : Option Server :=
  match s.requests c with
  | some (ref, .waiting waiting) =>
    (s.state.records ref).bind fun run =>
      (waiting.resume wakeup ⟨s.state.registry, run.operationStore, run.ledger⟩ stamp).map
        fun (shared, settled) =>
          let run := { run with operationStore := shared.operationStore, ledger := shared.ledger }
          { s with
            state := { s.state with
              registry := shared.registry
              records := Function.update s.state.records ref (some run) }
            requests := Function.update s.requests c (some (ref, .settled settled)) }
  | _ => none

/-- Continue the request behind a settled call, to its end. -/
def resume (s : Server) (c : RequestId) (now : Instant) : Option Server :=
  match s.requests c with
  | some (ref, .settled settled) =>
    (s.state.records ref).map fun run =>
      let (run, outcome) := finishExecution run settled now
      { s.setRun ref run with
        requests := Function.update s.requests c none
        trace := s.trace ++ entriesOn c ref [.responded outcome] }
  | _ => none

/-- One step; `none` when the label does not fit the state. -/
def step (model : ModelAdapter) (s : Server) : ServerEvent → Option Server
  | .request request => some (s.handle model request)
  | .execute c draw => s.execute c draw
  | .deliver c stamp =>
    (s.promises c).bind fun (_, promise) =>
      promise.wakeup.bind fun wakeup => s.wake c wakeup stamp
  | .timeout c stamp => s.wake c .timerFired stamp
  | .refuse c stamp => s.wake c .refusalDelivered stamp
  | .resume c now => s.resume c now

end

end Server

end ActionHarbor
