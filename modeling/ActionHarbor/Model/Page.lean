import ActionHarbor.Model.Http
import ActionHarbor.Model.Server
import ActionHarbor.Model.Views

/-!
# The page

`App`, the root of the web app, and its conversation with the server. A handler of the page
runs up to its first `await`, waits for one answer and goes on with it. In between the server
takes any steps, for this page and for others; the request, its handler on the server and the
answer are under way for as long as they like, and a `fetch` may fail at any moment.

## Key definitions

- `Page`: the state of `App`
- `Page.handleStart`, `Page.handleAction`: the clicks, up to the first `await`
- `Page.receive`: a handler after its `await`
- `Session.step`: the page and the server together
-/

namespace ActionHarbor

/-! ## Answers -/

/-- What a call of the client rejects with. -/
inductive ClientError where
  /-- `ApiError` -/
  | api (status : Nat) (code message : JsString)
  /-- any other error: the `fetch` failed, or its body was no JSON -/
  | other (message : JsString)
deriving DecidableEq, Repr

/-- `describeError` -/
def ClientError.describe : ClientError → JsString
  | .api _ code message => code ++ js ": " ++ message
  | .other message => message

/-- What the page gets for a request. -/
inductive Reply where
  /-- `{ run }` -/
  | run (run : RunView)
  /-- `{ result, ledger }` -/
  | verified (result : LedgerIntegrityResult) (ledger : List AuditLedgerEntry)
  | failed (error : ClientError)

/-- The code the server sends with an error. -/
def RequestError.wireCode : RequestError → JsString
  | .orchestrator .notFound _ => js "NOT_FOUND"
  | .orchestrator .invalidState _ => js "INVALID_STATE"
  | .orchestrator .unknownScenario _ => js "UNKNOWN_SCENARIO"
  | .illegalTransition _ _ | .internal _ | .call _ => js "INTERNAL_ERROR"

/-- The answer to a request that died with `error`. `text` is the message of an error that is
    not the orchestrator's own. -/
def errorReply (text : JsString) (error : RequestError) : Reply :=
  .failed (.api (errorStatus error) error.wireCode (error.message.getD text))

/-! ## The state of the page -/

/-- The state variables of `App`. -/
structure Page where
  scenarios : List ScenarioMeta := []
  /-- an object, read only under keys that are its own -/
  runs : JsString → Option RunView := fun _ => none
  runOrder : List JsString := []
  selectedRunId : Option JsString := none
  ledgerIntegrityFailedFor : Option JsString := none
  busy : Bool := false
  error : Option JsString := none

/-- Where a handler waits for the server. -/
inductive Handler where
  /-- `handleStart` -/
  | start
  /-- `handleAction`, for the call of its table -/
  | action
  /-- `handleAction("verify_ledger")`, for `verifyRunLedger` -/
  | verify (runId : JsString)
  /-- the same, for `getRun`, with what `verifyRunLedger` has returned -/
  | refresh (runId : JsString) (result : LedgerIntegrityResult)
deriving DecidableEq, Repr

namespace Page

/-- `withBusy`, before the action. -/
def enterBusy (page : Page) : Page := { page with busy := true, error := none }

/-- `withBusy`, after an action that succeeded. -/
def leaveBusy (page : Page) : Page := { page with busy := false }

/-- `withBusy`, after an action that failed. -/
def fail (page : Page) (error : ClientError) : Page :=
  { page with error := some error.describe, busy := false }

/-- `upsertRun` -/
def upsertRun (page : Page) (run : RunView) : Page :=
  { page with
    runs := Function.update page.runs run.runId (some run)
    runOrder :=
      if page.runOrder.contains run.runId then page.runOrder else run.runId :: page.runOrder }

/-- The runs the list shows. -/
def orderedRuns (page : Page) : List RunView := page.runOrder.filterMap page.runs

/-- `selectedRun` -/
def selectedRun (page : Page) : Option RunView := page.selectedRunId.bind page.runs

/-- `handleStart`, up to its `await`. -/
def handleStart (page : Page) (scenarioId : JsString) : Page × Handler × ClientCall :=
  (page.enterBusy, .start, .createRun scenarioId)

/-- The table of `handleAction`. -/
def dispatch (action runId : JsString) : Option ClientCall :=
  if action = js "approve" then some (.approveRun runId)
  else if action = js "simulate_drift" then some (.simulateDrift runId)
  else if action = js "replay" then some (.replayRun runId)
  else if action = js "reconcile" then some (.reconcileRun runId)
  else none

/-- `handleAction`, up to its first `await`; `none` when it returns before it. -/
def handleAction (page : Page) (action : JsString) : Option (Page × Handler × ClientCall) :=
  match page.selectedRunId with
  | none => none
  | some runId =>
    if action = js "verify_ledger" then
      some (page.enterBusy, .verify runId, .verifyRunLedger runId)
    else (dispatch action runId).map fun call => (page.enterBusy, .action, call)

/-- A handler after its `await`, with the call it makes next; `none` where the answer is one
    to another call. -/
def receive (page : Page) : Handler → Reply → Option (Page × Option (Handler × ClientCall))
  | _, .failed error => some (page.fail error, none)
  | .start, .run run =>
    some ({ page.leaveBusy.upsertRun run with
      selectedRunId := some run.runId
      ledgerIntegrityFailedFor := none }, none)
  | .action, .run run => some (page.leaveBusy.upsertRun run, none)
  | .verify runId, .verified result _ =>
    some (page, some (.refresh runId result, .getRun runId))
  | .refresh runId result, .run run =>
    some ({ page.leaveBusy.upsertRun run with
      ledgerIntegrityFailedFor := if result matches .ok _ then none else some runId }, none)
  | _, _ => none

end Page

/-! ## Page and server -/

/-- The ids and clock readings a request of the page will draw. -/
structure Draws where
  create : CreateDraw
  approve : ApproveDraw
  reads : CallReads
  stamp : Stamp
  now : Instant

/-- The request on the orchestrator behind a call of the client, if there is one. -/
def ClientCall.toRequest (draws : Draws) : ClientCall → Option Request
  | .createRun scenario => some (.createRun scenario draws.create)
  | .approveRun runId => some (.approveRun runId draws.approve)
  | .simulateDrift runId => some (.simulateDrift runId draws.now)
  | .replayRun runId => some (.replayRun runId draws.reads)
  | .reconcileRun runId => some (.reconcileRun runId draws.reads)
  | .verifyRunLedger runId => some (.verifyRunLedger runId draws.stamp)
  | .listScenarios | .listRuns | .getRun _ | .verifyLedgerPreview _ => none

/-- Where a request of the page is. -/
inductive Delivery where
  /-- on its way to the server -/
  | sent (call : ClientCall)
  /-- the orchestrator works on it, as request `c` -/
  | handling (c : RequestId)
  /-- the orchestrator's function has returned, with a run if it found one, and the handler
      has not gone on -/
  | settled (ref : Option RunRef) (outcome : Except RequestError Unit)
  /-- the answer is on its way back -/
  | replied (reply : Reply)

namespace Server

/-- The answer the server has given last. -/
def lastAnswer (s : Server) : Option (Option RunRef × Except RequestError Unit) :=
  match s.trace.getLast? with
  | some ⟨_, ref, .responded outcome⟩ => some (ref, outcome)
  | _ => none

/-- The run object an id stands for. -/
def findRun (s : Server) (runId : JsString) : Option RunRecord :=
  (s.state.runs runId).bind s.state.records

/-- `getRun`, answered. -/
def runReply (s : Server) (runId : JsString) : Reply :=
  match s.findRun runId with
  | none => .failed (.api 404 (js "NOT_FOUND") (js "no run with id \"" ++ runId ++ js "\""))
  | some run => .run (toRunView run)

/-- `verifyRunLedger`, answered: the result is computed before the row about it is added, the
    ledger is read behind it. -/
def verifyReply [Host] (s : Server) (runId : JsString) (stamp : Stamp) (text : JsString) : Reply :=
  match s.findRun runId with
  | none =>
    errorReply text (.orchestrator .notFound (js "no run with id \"" ++ runId ++ js "\""))
  | some run =>
    match verifyRunLedger run stamp with
    | .error error => errorReply text error
    | .ok (run, result) => .verified result run.ledger.entries

end Server

/-- A request the orchestrator has just worked on: either it has returned, or it awaits the
    gateway. -/
def Delivery.progress (c : RequestId) (server : Server) : Delivery :=
  match server.requests c, server.lastAnswer with
  | none, some (ref, outcome) => .settled ref outcome
  | _, _ => .handling c

/-- A request after a step of the server. The one step that ends it answers it. -/
def Delivery.after (server : Server) : Delivery → Delivery
  | .handling c => .progress c server
  | delivery => delivery

/-- The page, the server, and the handler of the page that waits for an answer. -/
structure Session where
  server : Server := {}
  page : Page := {}
  fetch : Option (Handler × Delivery) := none

/-- What can happen next. -/
inductive SessionEvent where
  /-- a step of the server, the requests of other clients among them -/
  | server (e : ServerEvent)
  /-- `listScenarios`, when the page is mounted, is answered -/
  | scenariosLoaded
  | scenariosFailed (error : ClientError)
  /-- a click on a scenario -/
  | start (scenarioId : JsString)
  /-- a click on an action of the selected run -/
  | act (action : JsString)
  /-- a click on a run in the list -/
  | select (runId : JsString)
  /-- the page's request reaches the server -/
  | arrive (draws : Draws) (text : JsString)
  /-- the handler on the server goes on and answers -/
  | reply (text : JsString)
  /-- the answer reaches the page -/
  | receive
  /-- the `fetch` rejects -/
  | lose (message : JsString)

namespace Session

/-- A handler of the page begins, or goes on with its next call. -/
def send (s : Session) (page : Page) (handler : Handler) (call : ClientCall) : Session :=
  { s with page := page, fetch := some (handler, .sent call) }

/-- A click on a scenario of the picker, whose buttons are disabled while the page is busy. -/
def start (s : Session) (scenarioId : JsString) : Option Session :=
  if s.page.busy = false ∧ (s.page.scenarios.map (·.id.toJs)).contains scenarioId then
    let (page, handler, call) := s.page.handleStart scenarioId
    some (s.send page handler call)
  else none

/-- A click on a button of the action bar, disabled in the same way. -/
def act (s : Session) (action : JsString) : Option Session :=
  match s.page.selectedRun with
  | none => none
  | some run =>
    if s.page.busy = false ∧ run.availableActions.contains action then
      -- without a call the click does nothing
      match s.page.handleAction action with
      | none => some s
      | some (page, handler, call) => some (s.send page handler call)
    else none

section
variable [Host]

/-- The page's request reaches the server. -/
def arrive (model : ModelAdapter) (s : Session) (draws : Draws) (text : JsString) :
    Option Session :=
  match s.fetch with
  | some (handler, .sent (.getRun runId)) =>
    some { s with fetch := some (handler, .replied (s.server.runReply runId)) }
  | some (handler, .sent (.verifyRunLedger runId)) =>
    -- the route reads and answers in one go
    some { s with
      server := s.server.handle model (.verifyRunLedger runId draws.stamp)
      fetch := some (handler, .replied (s.server.verifyReply runId draws.stamp text)) }
  | some (handler, .sent call) =>
    (call.toRequest draws).map fun request =>
      let server := s.server.handle model request
      { s with server := server, fetch := some (handler, .progress s.server.nextRequest server) }
  | _ => none

omit [Host] in
/-- The handler on the server goes on: it sends the view of the run at this moment, or the
    error. -/
def reply (s : Session) (text : JsString) : Option Session :=
  match s.fetch with
  | some (handler, .settled _ (.error error)) =>
    some { s with fetch := some (handler, .replied (errorReply text error)) }
  | some (handler, .settled ref (.ok ())) =>
    (ref.bind s.server.state.records).map fun run =>
      { s with fetch := some (handler, .replied (.run (toRunView run))) }
  | _ => none

omit [Host] in
/-- The answer reaches the page. -/
def receive (s : Session) : Option Session :=
  match s.fetch with
  | some (handler, .replied reply) =>
    (s.page.receive handler reply).map fun (page, next) =>
      { s with page := page, fetch := next.map fun (handler, call) => (handler, .sent call) }
  | _ => none

/-- A step of the server, and what it means for the page's request. -/
def serverStep (model : ModelAdapter) (s : Session) (e : ServerEvent) : Option Session :=
  (s.server.step model e).map fun server =>
    { s with
      server := server
      fetch := s.fetch.map fun (handler, delivery) => (handler, delivery.after server) }

/-- One step of page and server; `none` when the label does not fit the state. -/
def step (model : ModelAdapter) (s : Session) : SessionEvent → Option Session
  | .server e => s.serverStep model e
  | .scenariosLoaded => some { s with page := { s.page with scenarios := scenarios } }
  | .scenariosFailed error => some { s with page := { s.page with error := some error.describe } }
  | .start scenarioId => s.start scenarioId
  | .act action => s.act action
  | .select runId =>
    if (s.page.orderedRuns.map (·.runId)).contains runId then
      some { s with page := { s.page with selectedRunId := some runId } }
    else none
  | .arrive draws text => s.arrive model draws text
  | .reply text => s.reply text
  | .receive => s.receive
  | .lose message =>
    s.fetch.map fun _ => { s with page := s.page.fail (.other message), fetch := none }

end

end Session

end ActionHarbor
