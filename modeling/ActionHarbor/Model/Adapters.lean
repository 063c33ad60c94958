import ActionHarbor.Model.Gateway

/-!
# Fake adapters

The three stateful fakes and the two decorators of the demo server. The fakes
share their code except for the action type and the receipt they construct, so
each is a `FakeAdapterKind` and `FakeAdapter.execute` is written once.

## Key definitions

- `fakeTicketAdapter`, `fakeMessageAdapter`, `fakeRefundAdapter`: the three kinds
- `FakeAdapter.execute`, `FakeAdapter.lookup`: the two methods
- `runCalls`: a fake that is handed one call after the other
- `CountingAdapter`: a fake and the number of `execute` calls it was handed
-/

namespace ActionHarbor

/-! ## Errors -/

/-- `CapabilityActionTypeMismatchError` -/
def capabilityActionTypeMismatchError (expected actual : ActionType) : AdapterError :=
  .error (js "adapter expects a capability for \"" ++ expected.toJs ++
    js "\" but received one for \"" ++ actual.toJs ++ js "\"")

/-- `IdempotencyKeyPayloadMismatchError` -/
def idempotencyKeyPayloadMismatchError (idempotencyKey : JsString) : AdapterError :=
  .error (js "idempotency key \"" ++ idempotencyKey ++
    js "\" was already used with a different payload")

/-- `CapabilityNotActiveError` -/
def capabilityNotActiveError (reason : String) : AdapterError :=
  .error (js "adapter received a capability that is not currently active (" ++ js reason ++ js ")")

/-- The adapters' own check, before anything else they do. -/
def assertCapabilityActive [Host] (capability : Capability) (now : Instant) :
    Except AdapterError Unit :=
  if capability.status ≠ .active then .error (capabilityNotActiveError "status")
  else if isExpired capability.expiresAt now then .error (capabilityNotActiveError "expired")
  else .ok ()

/-- `params[key]`, with the `TypeError` thrown for `null` and `undefined`. -/
def readParam (params : JsValue) (key : String) : Except AdapterError JsValue :=
  match params.getProp (js key) with
  | some value => .ok value
  | none =>
    let text := match params with
      | .null => "null"
      | _ => "undefined"
    .error (.error (js "Cannot read properties of " ++ js text ++ js " (reading '" ++ js key ++
      js "')"))

/-! ## Receipts -/

/-- What one `execute` draws from its surroundings: two clock readings, the next
    receipt id, and zod's text about a candidate that does not parse. -/
structure AdapterDraw where
  now : Instant
  receiptId : JsString
  createdAt : Instant
  issues : JsString

section
variable [Host]

/-- Parse raw adapter output; an error carries the `details` of the rejection. -/
def validateAdapterReceipt (actionType : ActionType) (raw : JsValue) (issues : JsString) :
    Except JsString JsValue :=
  let finish (parsed : Option JsValue) : Except JsString JsValue :=
    match parsed with
    | some receipt => .ok receipt
    | none => .error issues
  match actionType with
  | .createInternalTicket => finish ((TicketReceipt.safeParse raw).map TicketReceipt.toJsValue)
  | .sendCustomerMessage => finish ((MessageReceipt.safeParse raw).map MessageReceipt.toJsValue)
  | .issueRefund => finish ((RefundReceipt.safeParse raw).map RefundReceipt.toJsValue)
  | .updateTicketStatus => .error (js "update_ticket_status has no implemented tool contract yet")

/-- What distinguishes the fakes: their name, action type and receipt candidate. -/
structure FakeAdapterKind where
  className : JsString
  actionType : ActionType
  candidate : AdapterOperation → Capability → JsValue → AdapterDraw → Except AdapterError JsValue

/-- `FakeTicketAdapter` -/
def fakeTicketAdapter : FakeAdapterKind where
  className := js "FakeTicketAdapter"
  actionType := .createInternalTicket
  candidate operation capability params draw := do
    let title ← readParam params "title"
    let description ← readParam params "description"
    let priority ← readParam params "priority"
    .ok (.object ([(js "ticketId", .string draw.receiptId), (js "status", .string (js "open")),
        (js "title", title)] ++
      (if description.isUndefined then [] else [(js "description", description)]) ++
      [(js "priority", match priority with
          | .undefined | .null => .string (js "medium")
          | given => given),
        (js "idempotencyKey", .string operation.idempotencyKey),
        (js "resourceId", .string capability.resourceId),
        (js "createdAt", .string (Host.toISOString draw.createdAt))]))

/-- `FakeMessageAdapter` -/
def fakeMessageAdapter : FakeAdapterKind where
  className := js "FakeMessageAdapter"
  actionType := .sendCustomerMessage
  candidate operation capability params draw := do
    let customerId ← readParam params "customerId"
    let body ← readParam params "body"
    let channel ← readParam params "channel"
    .ok (.object [(js "messageId", .string draw.receiptId), (js "customerId", customerId),
      (js "body", body), (js "channel", channel),
      (js "idempotencyKey", .string operation.idempotencyKey),
      (js "resourceId", .string capability.resourceId),
      (js "sentAt", .string (Host.toISOString draw.createdAt))])

/-- `FakeRefundAdapter` -/
def fakeRefundAdapter : FakeAdapterKind where
  className := js "FakeRefundAdapter"
  actionType := .issueRefund
  candidate operation capability params draw := do
    let orderId ← readParam params "orderId"
    let amountMinorInteger ← readParam params "amountMinorInteger"
    let currency ← readParam params "currency"
    let reason ← readParam params "reason"
    .ok (.object [(js "refundId", .string draw.receiptId), (js "orderId", orderId),
      (js "amountMinorInteger", amountMinorInteger), (js "currency", currency),
      (js "reason", reason), (js "idempotencyKey", .string operation.idempotencyKey),
      (js "resourceId", .string capability.resourceId),
      (js "issuedAt", .string (Host.toISOString draw.createdAt))])

/-- One of the three fakes. -/
inductive IsFakeAdapter : FakeAdapterKind → Prop
  | ticket : IsFakeAdapter fakeTicketAdapter
  | message : IsFakeAdapter fakeMessageAdapter
  | refund : IsFakeAdapter fakeRefundAdapter

end

/-! ## The stateful fake -/

/-- What a fake remembers under an idempotency key. -/
structure IdempotencyRecord where
  payloadHash : JsString
  receipt : JsValue

/-- The two tables of a fake. `created` lists the receipts it constructed with the
    key of the call, oldest first; the source keeps no such list. -/
structure FakeAdapter where
  byOperationId : JsString → Option JsValue := fun _ => none
  byIdempotencyKey : JsString → Option IdempotencyRecord := fun _ => none
  created : List (JsString × JsValue) := []

namespace FakeAdapter
variable [Host]

/-- Construct, validate and remember the receipt of a new key. -/
def create (kind : FakeAdapterKind) (adapter : FakeAdapter) (operation : AdapterOperation)
    (capability : Capability) (params : JsValue) (payloadHash : JsString) (draw : AdapterDraw) :
    Except AdapterError (FakeAdapter × JsValue) := do
  let candidate ← kind.candidate operation capability params draw
  match validateAdapterReceipt kind.actionType candidate draw.issues with
  | .error details =>
    .error (.error (kind.className ++ js " produced an invalid receipt: " ++ details))
  | .ok receipt =>
    .ok ({ adapter with
            byIdempotencyKey := Function.update adapter.byIdempotencyKey operation.idempotencyKey
              (some ⟨payloadHash, receipt⟩)
            created := adapter.created ++ [(operation.idempotencyKey, receipt)] }, receipt)

/-- The receipt for a key: the remembered one, or a new one. -/
def receiptFor (kind : FakeAdapterKind) (adapter : FakeAdapter) (operation : AdapterOperation)
    (capability : Capability) (params : JsValue) (payloadHash : JsString) (draw : AdapterDraw) :
    Except AdapterError (FakeAdapter × JsValue) :=
  match adapter.byIdempotencyKey operation.idempotencyKey with
  | some existing =>
    if existing.payloadHash ≠ payloadHash then
      .error (idempotencyKeyPayloadMismatchError operation.idempotencyKey)
    else .ok (adapter, existing.receipt)
  | none => adapter.create kind operation capability params payloadHash draw

/-- `execute` of a fake: it has no `await`, so it runs in one piece. -/
def execute (kind : FakeAdapterKind) (adapter : FakeAdapter) (operation : AdapterOperation)
    (capability : Capability) (params : JsValue) (draw : AdapterDraw) :
    Except AdapterError (FakeAdapter × JsValue) := do
  if capability.actionType ≠ kind.actionType then
    .error (capabilityActionTypeMismatchError kind.actionType capability.actionType)
  else
    assertCapabilityActive capability draw.now
    match hashCanonical params with
    | .error error => .error (.error error.message)
    | .ok payloadHash =>
      let (adapter, receipt) ←
        adapter.receiptFor kind operation capability params payloadHash draw
      -- registered under this call's operation id even when the receipt is an old one
      .ok ({ adapter with
              byOperationId :=
                Function.update adapter.byOperationId operation.operationId (some receipt) },
        receipt)

/-- `execute` once more, statement by statement over the two tables: a throw leaves them
    with whatever was written before it. -/
def executeInPlace (kind : FakeAdapterKind) (operation : AdapterOperation)
    (capability : Capability) (params : JsValue) (draw : AdapterDraw) :
    ExceptT AdapterError (StateM FakeAdapter) JsValue := do
  if capability.actionType ≠ kind.actionType then
    throw (capabilityActionTypeMismatchError kind.actionType capability.actionType)
  liftExcept (assertCapabilityActive capability draw.now)
  let payloadHash ← match hashCanonical params with
    | .ok payloadHash => pure payloadHash
    | .error error => throw (.error error.message)
  let receipt ← match (← get).byIdempotencyKey operation.idempotencyKey with
    | some existing =>
      if existing.payloadHash ≠ payloadHash then
        throw (idempotencyKeyPayloadMismatchError operation.idempotencyKey)
      pure existing.receipt
    | none => do
      let candidate ← liftExcept (kind.candidate operation capability params draw)
      match validateAdapterReceipt kind.actionType candidate draw.issues with
      | .error details =>
        throw (.error (kind.className ++ js " produced an invalid receipt: " ++ details))
      | .ok receipt =>
        modify fun adapter => { adapter with
          byIdempotencyKey := Function.update adapter.byIdempotencyKey operation.idempotencyKey
            (some ⟨payloadHash, receipt⟩)
          created := adapter.created ++ [(operation.idempotencyKey, receipt)] }
        pure receipt
  modify fun adapter => { adapter with
    byOperationId := Function.update adapter.byOperationId operation.operationId (some receipt) }
  return receipt

omit [Host] in
/-- `lookup` of a fake. -/
def lookup (adapter : FakeAdapter) (operationId : JsString) : JsValue :=
  match adapter.byOperationId operationId with
  | some receipt => .object [(js "status", .string (js "found")), (js "receipt", receipt)]
  | none => .object [(js "status", .string (js "unknown"))]

end FakeAdapter

/-! ## Calls in sequence -/

/-- The arguments of one `execute` and what it draws. -/
structure ExecuteCall where
  operation : AdapterOperation
  capability : Capability
  params : JsValue
  draw : AdapterDraw

/-- A fake, and the calls it was handed, each with what it returned or threw. -/
structure CallHistory where
  adapter : FakeAdapter := {}
  results : List (ExecuteCall × Except AdapterError JsValue) := []

section
variable [Host]

/-- Hand a call to a fake. -/
def FakeAdapter.call (kind : FakeAdapterKind) (adapter : FakeAdapter) (next : ExecuteCall) :
    Except AdapterError JsValue × FakeAdapter :=
  (executeInPlace kind next.operation next.capability next.params next.draw).run.run adapter

/-- One more call. -/
def CallHistory.step (kind : FakeAdapterKind) (history : CallHistory) (next : ExecuteCall) :
    CallHistory :=
  let (result, adapter) := history.adapter.call kind next
  ⟨adapter, history.results ++ [(next, result)]⟩

/-- Hand calls to a fresh fake, one after the other. -/
def runCalls (kind : FakeAdapterKind) (calls : List ExecuteCall) : CallHistory :=
  calls.foldl (CallHistory.step kind) {}

end

/-! ## Decorators -/

/-- `CountingAdapter` around a fake. `execute` counts the call and hands it on. -/
structure CountingAdapter where
  inner : FakeAdapter := {}
  callCount : Nat := 0

namespace CountingAdapter

/-- `this.callCount += 1`, which happens when `execute` is called. -/
def count (adapter : CountingAdapter) : CountingAdapter :=
  { adapter with callCount := adapter.callCount + 1 }

/-- The wrapped fake's `execute`, at once or after the sleep of a `SlowTicketAdapter`.
    A throw leaves the fake as it was. -/
def execute [Host] (kind : FakeAdapterKind) (adapter : CountingAdapter)
    (operation : AdapterOperation) (capability : Capability) (params : JsValue)
    (draw : AdapterDraw) : CountingAdapter × Except AdapterError JsValue :=
  match adapter.inner.execute kind operation capability params draw with
  | .error error => (adapter, .error error)
  | .ok (inner, receipt) => ({ adapter with inner := inner }, .ok receipt)

end CountingAdapter

end ActionHarbor
