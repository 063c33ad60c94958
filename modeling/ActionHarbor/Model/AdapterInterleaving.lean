import ActionHarbor.Model.Adapters
import ActionHarbor.Model.Interleaving

/-!
# Interleavings with a fake adapter

The calls of one `executeAction` session over one fake adapter. The adapter is no
longer part of the environment: a step is now a new call, the inner `execute` of a
call, or the continuation of a call. When the inner `execute` runs is free, so the
delays of a `SlowTicketAdapter` are arbitrary; a bare or counting adapter runs it
right after the call's start. It also runs for a call that has timed out, since
nothing cancels it.
-/

namespace ActionHarbor

/-- The promise of an adapter method a call invoked. -/
inductive AdapterPromise where
  /-- `execute` was invoked and the fake's own `execute` has not run -/
  | sleeping (operation : AdapterOperation) (capability : Capability) (params : JsValue)
  /-- the fake's `execute` has run -/
  | executed (outcome : Except AdapterError JsValue)
  /-- `lookup` was invoked; it answers from the table of that moment -/
  | lookedUp (answer : JsValue)

/-- The wakeup a settled promise has in store for the call that awaits it. -/
def AdapterPromise.wakeup : AdapterPromise → Option Wakeup
  | .sleeping _ _ _ => none
  | .executed (.ok receipt) => some (.executeResolved receipt)
  | .executed (.error error) => some (.executeRejected error)
  | .lookedUp answer => some (.lookupSettled (.resolved answer))

/-- The calls of a session, its adapter, and the promises the adapter handed out. -/
structure AdapterWorld where
  world : World Unit := {}
  adapter : CountingAdapter := {}
  promises : CallId → Option AdapterPromise := fun _ => none

/-- One scheduling step. -/
inductive AdapterEvent where
  | record (capability : Capability)
  | start (input : ExecuteActionInput) (reads : CallReads)
  | execute (c : CallId) (draw : AdapterDraw)
  | deliver (c : CallId) (stamp : Stamp)
  | timeout (c : CallId) (stamp : Stamp)
  | refuse (c : CallId) (stamp : Stamp)

namespace AdapterWorld

/-- Invoke the adapter for a call that begins to wait. -/
def invoke (w : AdapterWorld) (c : CallId) : Waiting → AdapterWorld
  | .executing call =>
    { w with
      adapter := w.adapter.count
      promises := Function.update w.promises c
        (some (.sleeping call.input.operation call.capability call.input.params)) }
  | .refused _ _ => w
  | .lookingUp call =>
    { w with
      promises := Function.update w.promises c
        (some (.lookedUp (w.adapter.inner.lookup call.prior.operationId))) }

section
variable [Host]

/-- Run the synchronous part of a call, down into the adapter. -/
def start (w : AdapterWorld) (input : ExecuteActionInput) (reads : CallReads) :
    Option AdapterWorld := do
  let world ← w.world.step (.start () input reads)
  let c := w.world.nextCall
  match world.pending c with
  | none => some { w with world := world }
  | some (_, waiting) => some ({ w with world := world }.invoke c waiting)

/-- Run the inner `execute` of a call. -/
def execute (kind : FakeAdapterKind) (w : AdapterWorld) (c : CallId) (draw : AdapterDraw) :
    Option AdapterWorld :=
  match w.promises c with
  | some (.sleeping operation capability params) =>
    let (adapter, outcome) := w.adapter.execute kind operation capability params draw
    some { w with
      adapter := adapter
      promises := Function.update w.promises c (some (.executed outcome)) }
  | _ => none

/-- Continue a call. -/
def wake (w : AdapterWorld) (c : CallId) (wakeup : Wakeup) (stamp : Stamp) :
    Option AdapterWorld :=
  (w.world.step (.wake c wakeup stamp)).map fun world => { w with world := world }

/-- One step; `none` when the label does not fit the state. -/
def step (kind : FakeAdapterKind) (w : AdapterWorld) : AdapterEvent → Option AdapterWorld
  | .record capability =>
    (w.world.step (.record capability)).map fun world => { w with world := world }
  | .start input reads => w.start input reads
  | .execute c draw => w.execute kind c draw
  | .deliver c stamp =>
    (w.promises c).bind fun promise =>
      promise.wakeup.bind fun wakeup => w.wake c wakeup stamp
  | .timeout c stamp => w.wake c .timerFired stamp
  | .refuse c stamp => w.wake c .refusalDelivered stamp

/-- One call of `executeAction`, run to completion over a bare or counting adapter
    before anything else happens. -/
structure CompleteCall where
  input : ExecuteActionInput
  reads : CallReads
  draw : AdapterDraw
  stamp : Stamp

/-- Run one call to completion. The promise of a bare fake settles before any timer
    fires, so the race is decided by the adapter. -/
def complete (kind : FakeAdapterKind) (w : AdapterWorld) (call : CompleteCall) :
    Option AdapterWorld := do
  let c := w.world.nextCall
  let started ← w.step kind (.start call.input call.reads)
  match started.world.pending c with
  | none => some started
  | some (_, .executing _) =>
    let executed ← started.step kind (.execute c call.draw)
    executed.step kind (.deliver c call.stamp)
  | some (_, .refused _ _) => started.step kind (.refuse c call.stamp)
  | some (_, .lookingUp _) => started.step kind (.deliver c call.stamp)

/-- One step of a sequence of calls that never overlap. -/
inductive SequentialEvent where
  | record (capability : Capability)
  | call (call : CompleteCall)

/-- Calls run to completion one after another, capabilities recorded in between. -/
def stepSequential (kind : FakeAdapterKind) (w : AdapterWorld) :
    SequentialEvent → Option AdapterWorld
  | .record capability => w.step kind (.record capability)
  | .call call => w.complete kind call

end

end AdapterWorld

end ActionHarbor
