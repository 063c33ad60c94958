import ActionHarbor.Model.Contracts

/-!
# Postcondition verification

`verifyPostcondition` and its three per-tool checks. The receipt is whatever the
adapter returned; nothing it claims about itself is trusted.
-/

namespace ActionHarbor

/-- What a genuine postcondition pass looks like for one call. -/
inductive PostconditionExpectation where
  | createInternalTicket (idempotencyKey : JsString)
  | sendCustomerMessage (idempotencyKey customerId body channel : JsString)
  | issueRefund (idempotencyKey orderId : JsString) (amountMinorInteger : JsNumber)
deriving DecidableEq, Repr

/-- The key an expectation is about. -/
def PostconditionExpectation.idempotencyKey : PostconditionExpectation → JsString
  | .createInternalTicket key => key
  | .sendCustomerMessage key _ _ _ => key
  | .issueRefund key _ _ => key

section
variable [Host]

/-- A schema-valid ticket receipt with the expected key. -/
def verifyTicketPostcondition (raw : JsValue) (idempotencyKey : JsString) : Bool :=
  match TicketReceipt.safeParse raw with
  | none => false
  | some receipt => receipt.idempotencyKey = idempotencyKey

/-- A schema-valid message receipt that reflects the expected message. -/
def verifyMessagePostcondition (raw : JsValue) (idempotencyKey customerId body channel : JsString) :
    Bool :=
  match MessageReceipt.safeParse raw with
  | none => false
  | some receipt =>
    receipt.idempotencyKey = idempotencyKey && receipt.customerId = customerId &&
    receipt.body = body && receipt.channel = channel

/-- A schema-valid refund receipt for the expected order and amount. -/
def verifyRefundPostcondition (raw : JsValue) (idempotencyKey orderId : JsString)
    (amountMinorInteger : JsNumber) : Bool :=
  match RefundReceipt.safeParse raw with
  | none => false
  | some receipt =>
    receipt.idempotencyKey = idempotencyKey && receipt.orderId = orderId &&
    receipt.amountMinorInteger.strictEq amountMinorInteger

/-- Dispatch on the action type; an expectation for another type never verifies,
    and `update_ticket_status` has no tool contract. -/
def verifyPostcondition (actionType : ActionType) (raw : JsValue)
    (expected : PostconditionExpectation) : Bool :=
  match actionType, expected with
  | .createInternalTicket, .createInternalTicket key => verifyTicketPostcondition raw key
  | .sendCustomerMessage, .sendCustomerMessage key customerId body channel =>
    verifyMessagePostcondition raw key customerId body channel
  | .issueRefund, .issueRefund key orderId amount => verifyRefundPostcondition raw key orderId amount
  | _, _ => false

end

end ActionHarbor
